import GodotGraph.Toml.Literal

/-!
Contract: whole documents.

Owns: assignments and headers, one on a line, and the table that they build together.
-/

set_option autoImplicit false

namespace GodotGraph.Toml

/-- The table of a document so far, and the header that the next lines belong to. -/
structure Building where
  root : Entries
  header : List String
  deriving Repr

namespace Building

/-- Changes the table that a header leads to, or stops in front of some text. -/
def changed (building : Building) (path : List String)
    (change : Entries → Except Fault Entries) (rest : List Char) : Except Error Entries :=
  let onLast := fun _ entries => change entries
  match building.root.within Entries.Route.header onLast path .header with
  | .ok root => .ok root
  | .error fault => refuse fault rest

def assign (building : Building) (keys : List String) (value : Value) (rest : List Char) :
    Except Error Building := do
  let root ← building.changed building.header
    (Entries.assign keys.dropLast (keys.getLastD "") value) rest
  return { building with root := root }

def opened (building : Building) (keys : List String) (isItem : Bool) (rest : List Char) :
    Except Error Building := do
  let last := keys.getLastD ""
  let root ← building.changed keys.dropLast
    (if isItem then Entries.openItem last else Entries.openTable last) rest
  return ⟨root, keys⟩

end Building

/-- Reads an assignment up to its line end. -/
def readAssignment (building : Building) (text : List Char) :
    Except Error (Building × List Char) := do
  let (keys, rest) ← key text
  match rest with
  | '=' :: rest => do
      let start := dropSpaces rest
      let (item, rest) ← value (start.length + 1) depthLimit start
      let building ← building.assign keys item text
      return (building, rest)
  | rest => refuse (.expected "an equals sign") rest

/-- The text after the bracket that closes a header, or the two of them. -/
def afterHeader? (isItem : Bool) : List Char → Option (List Char)
  | ']' :: rest => if isItem then afterHeader? false rest else some rest
  | _ => none

/-- Reads a header up to its line end. -/
def readHeader (building : Building) (text : List Char) :
    Except Error (Building × List Char) := do
  let isItem := text.head? = some '['
  let (keys, rest) ← key (if isItem then text.drop 1 else text)
  match afterHeader? isItem rest with
  | some rest => do
      let building ← building.opened keys isItem text
      return (building, rest)
  | none => refuse (.expected "a closing bracket") rest

/-- Reads the lines of a document. The budget counts the characters that are left. -/
def readLines (budget : Nat) (building : Building) (text : List Char) :
    Except Error Entries :=
  match budget with
  | 0 => .ok building.root
  | budget + 1 => do
      let start ← afterFiller false text
      match start with
      | [] => return building.root
      | '[' :: rest => do
          let (building, rest) ← readHeader building rest
          readLines budget building (← afterLine rest)
      | start => do
          let (building, rest) ← readAssignment building start
          readLines budget building (← afterLine rest)

/-- Reads a document. A mark for the byte order in front of it does not count. -/
def Entries.ofText (text : String) : Except Error Entries :=
  let body :=
    match text.toList with
    | '\ufeff' :: rest => rest
    | body => body
  readLines (body.length + 1) ⟨[], []⟩ body

end GodotGraph.Toml
