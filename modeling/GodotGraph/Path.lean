import GodotGraph.Text.Search

/-!
Contract: paths of a slash-separated file system, read without looking at it.

Owns:
- the components of a path: repeated slashes and inner dots count for nothing;
- its last name, the two parts of that name, the path above it, and paths below it;
- the components of a path below a base.
-/

set_option autoImplicit false

namespace GodotGraph.Path

/-- One step of a path. -/
inductive Component where
  | root
  | here
  | up
  | name (text : String)
  deriving DecidableEq, Repr

namespace Component

/-- The component of an inner segment, if it counts. -/
def ofSegment (segment : String) : Option Component :=
  if segment = "" || segment = "." then none
  else if segment = ".." then some up
  else some (name segment)

def name? : Component → Option String
  | name text => some text
  | _ => none

def text : Component → String
  | root => "/"
  | here => "."
  | up => ".."
  | name text => text

end Component

def isAbsolute (path : String) : Bool :=
  path.toList.head? = some '/'

/-- The segments of a path, without the empty one before a leading slash. -/
def bodySegments (path : String) : List String :=
  if isAbsolute path then (Text.segments path).drop 1 else Text.segments path

/-- The components of a path. A single dot counts only at the start. -/
def components (path : String) : List Component :=
  let body := (bodySegments path).filterMap Component.ofSegment
  if isAbsolute path then .root :: body
  else if (bodySegments path).head? = some "." then .here :: body
  else body

/-- The last component, if it is an ordinary name. -/
def fileName? (path : String) : Option String :=
  (components path).getLast?.bind Component.name?

/-- The last component, or nothing as the empty name. -/
def fileName (path : String) : String :=
  (fileName? path).getD ""

/-- A name before and after its last dot. A dot in front is part of the name. -/
def splitName (name : String) : String × Option String :=
  let reversed := name.toList.reverse
  let tail := reversed.takeWhile (· ≠ '.')
  match reversed.dropWhile (· ≠ '.') with
  | _ :: c :: stem => (String.ofList (c :: stem).reverse, some (String.ofList tail.reverse))
  | _ => (name, none)

def stem? (path : String) : Option String :=
  (fileName? path).map fun name => (splitName name).1

/-- What follows the last dot of the last name. -/
def extension? (path : String) : Option String :=
  (fileName? path).bind fun name => (splitName name).2

/-- Reversed segments without the empty ones and dots in front. The first segment of
a relative path counts even if it is a dot. -/
def dropIdle (absolute : Bool) : List String → List String
  | [] => []
  | [first] => if first = "" || (absolute && first = ".") then [] else [first]
  | segment :: others =>
      if segment = "" || segment = "." then dropIdle absolute others else segment :: others

/-- The path without its last component, as it was written. -/
def parent? (path : String) : Option String :=
  let absolute := isAbsolute path
  match dropIdle absolute (bodySegments path).reverse with
  | [] => none
  | _ :: above =>
      some ((if absolute then "/" else "") ++
        Text.joinSegments (dropIdle absolute above).reverse)

def join (path name : String) : String :=
  if path = "" then name
  else if path.toList.getLast? = some '/' then path ++ name
  else path ++ "/" ++ name

/-- The rest of a list after a leading part. -/
def afterPart? : List Component → List Component → Option (List Component)
  | [], path => some path
  | _ :: _, [] => none
  | expected :: base, component :: path =>
      if expected = component then afterPart? base path else none

/-- The components of a path below a base, if the path starts with the base. -/
def below? (base path : String) : Option (List Component) :=
  afterPart? (components base) (components path)

/-- The components below a base are what is left of the path after it. -/
theorem append_of_afterPart? {base path rest : List Component}
    (found : afterPart? base path = some rest) : path = base ++ rest := by
  induction base generalizing path with
  | nil => simpa [afterPart?] using found
  | cons expected base inductionHypothesis =>
      cases path with
      | nil => simp [afterPart?] at found
      | cons component path =>
          unfold afterPart? at found
          split at found
          · next same => rw [same, inductionHypothesis found, List.cons_append]
          · simp at found

end GodotGraph.Path
