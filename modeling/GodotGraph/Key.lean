import GodotGraph.Path

/-!
Contract: keys, which name the files of a project.

Owns:
- the normal form of a key, which has no empty, dot or double-dot segment;
- keys of written references, by the project root or by a directory;
- keys of paths in the file system.

A key starts with the name of the project root, so that it is a path relative to the
directory above the root. A reference that leaves the root has no key.
-/

set_option autoImplicit false

namespace GodotGraph.Key

/-- Walks the segments from a stack of names. A double dot takes the last name off;
there is no answer when none is left. -/
def walk : List String → List String → Option (List String)
  | stack, [] => some stack.reverse
  | stack, segment :: rest =>
      if segment = "" || segment = "." then walk stack rest
      else if segment = ".." then
        match stack with
        | [] => none
        | _ :: outer => walk outer rest
      else walk (segment :: stack) rest

/-- The normal form of a path, unless it climbs above its start. -/
def normalize? (path : String) : Option String :=
  (walk [] (Text.segments path)).map Text.joinSegments

/-- The key lies strictly below the root directory. -/
def isInside (rootName key : String) : Bool :=
  (rootName.toList ++ ['/']).isPrefixOf key.toList

def inside? (rootName key : String) : Option String :=
  if isInside rootName key then some key else none

/-- The key of a path that starts at the project root. -/
def ofRooted? (rootName path : String) : Option String :=
  if rootName = "" then normalize? path
  else (normalize? (rootName ++ "/" ++ path)).bind (inside? rootName)

/-- The key of a path that starts at the directory of a file. -/
def ofRelative? (rootName directory path : String) : Option String :=
  let whole := if directory = "" then path else directory ++ "/" ++ path
  if rootName = "" then normalize? whole
  else (normalize? whole).bind (inside? rootName)

/-- The key of a path in the file system below a base. -/
def ofPath? (base path : String) : Option String :=
  match (Path.below? base path).map fun steps => steps.filterMap Path.Component.name? with
  | some (first :: others) => some (Text.joinSegments (first :: others))
  | _ => none

/-- The key up to its last slash. -/
def directory (key : String) : String :=
  match key.toList.reverse.dropWhile (· ≠ '/') with
  | [] => ""
  | _ :: above => String.ofList above.reverse

/-- A key is inside the root exactly if it begins with the root and a slash. -/
theorem inside?_eq_some_iff {rootName key found : String} :
    inside? rootName key = some found ↔ key = found ∧ isInside rootName key = true := by
  unfold inside?
  split <;> simp_all

end GodotGraph.Key
