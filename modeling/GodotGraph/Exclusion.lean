import GodotGraph.Glob
import GodotGraph.Path

/-!
Contract: which paths below a project root are left out.

Owns: the list of patterns, and trying them on a whole path and on each of its names.

The directories that the engine generates are left out under every list of patterns.
-/

set_option autoImplicit false

namespace GodotGraph

structure Exclusion where
  globs : List Glob
  deriving DecidableEq, Repr

namespace Exclusion

/-- Directories that hold nothing but what the engine generated. -/
def generatedNames : List String := [".godot", ".import"]

/-- Reads all patterns. The first one that is wrong decides. -/
def ofPatterns (patterns : List String) : Except Glob.Error Exclusion :=
  (patterns.mapM Glob.ofText).map Exclusion.mk

def matchesText (exclusion : Exclusion) (text : String) : Bool :=
  exclusion.globs.any fun glob => glob.accepts text

/-- A name on a path leaves the path out. -/
def coversName (exclusion : Exclusion) (name : String) : Bool :=
  generatedNames.contains name || exclusion.matchesText name

/-- The path, relative to the root, is left out. Backslashes in it count as slashes for
the patterns on whole paths. -/
def covers (exclusion : Exclusion) (path : String) : Bool :=
  exclusion.matchesText (Text.replaceChar '\\' '/' path) ||
    (Path.components path).any fun component => exclusion.coversName component.text

/-- Without patterns only generated directories are left out. -/
theorem coversName_of_no_globs (name : String) :
    (Exclusion.mk []).coversName name = generatedNames.contains name := by
  simp [coversName, matchesText]

end Exclusion

end GodotGraph
