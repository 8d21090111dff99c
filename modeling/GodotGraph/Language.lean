import GodotGraph.Path

/-!
Contract: the languages of project files.

Owns: the two languages, the file extensions of each, and the language of a path.
-/

set_option autoImplicit false

namespace GodotGraph

/-- What a project file is written in. -/
inductive Language where
  | script
  | scene
  deriving DecidableEq, Repr

namespace Language

def ofExtension? (extension : String) : Option Language :=
  if extension = "gd" then some script
  else if extension = "tscn" || extension = "tres" then some scene
  else none

def ofPath? (path : String) : Option Language :=
  (Path.extension? path).bind ofExtension?

/-- The extension that completes a name without one. -/
def extension : Language → String
  | script => "gd"
  | scene => "tscn"

def title : Language → String
  | script => "GDScript"
  | scene => "Godot scene"

/-- Every language completes names with an extension of its own. -/
theorem ofExtension?_extension (language : Language) :
    ofExtension? language.extension = some language := by
  cases language <;> decide

end Language

end GodotGraph
