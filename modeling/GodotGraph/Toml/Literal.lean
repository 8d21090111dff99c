import GodotGraph.Toml.Quoted
import GodotGraph.Toml.Scalar

/-!
Contract: keys and values as they are written.

Owns: comments and line ends, bare, quoted and dotted keys, lists, tables that are
written out as values, and the limit on how deep all of these lead.

Lists and such tables may run over several lines and may end with a comma. Inside a table
lines may also end around the equals sign.
-/

set_option autoImplicit false

namespace GodotGraph.Toml

/-! ## Between the parts -/

/-- The text after blanks, line ends and comments. -/
def afterFiller (inComment : Bool) : List Char → Except Error (List Char)
  | [] => .ok []
  | '\r' :: '\n' :: rest => afterFiller false rest
  | '\n' :: rest => afterFiller false rest
  | c :: rest =>
      if inComment then
        if isControl c then refuse .control (c :: rest) else afterFiller true rest
      else if c = '#' then afterFiller true rest
      else if isSpace c then afterFiller false rest
      else .ok (c :: rest)

/-- The text after a comment, in front of the line end. -/
def afterComment : List Char → Except Error (List Char)
  | [] => .ok []
  | '\r' :: '\n' :: rest => .ok ('\r' :: '\n' :: rest)
  | '\n' :: rest => .ok ('\n' :: rest)
  | c :: rest => if isControl c then refuse .control (c :: rest) else afterComment rest

/-- The text after the end of a line, which may have a comment. -/
def afterLine (text : List Char) : Except Error (List Char) := do
  let rest ←
    match dropSpaces text with
    | '#' :: rest => afterComment rest
    | rest => .ok rest
  match rest, afterBreak? rest with
  | [], _ => .ok []
  | _, some rest => .ok rest
  | rest, none => refuse (.expected "the end of the line") rest

/-- Lists and tables that are written out lie at most so deep within each other, and a
dotted key has at most so many parts. -/
def depthLimit : Nat := 80

/-! ## Keys -/

/-- A character of a bare key. -/
def isBare (c : Char) : Bool := c.isAlphanum || c = '-' || c = '_'

def keyPart : List Char → Except Error (String × List Char)
  | '"' :: rest => Quoted.readShort ('"' :: rest)
  | '\'' :: rest => Quoted.readShort ('\'' :: rest)
  | text =>
      match text.takeWhile isBare with
      | [] => refuse (.expected "a key") text
      | c :: others => .ok (String.ofList (c :: others), text.dropWhile isBare)

/-- The parts of a key between dots, and the text after the blanks that follow it. -/
def keyPath (budget : Nat) (text : List Char) : Except Error (List String × List Char) :=
  match budget with
  | 0 => refuse (.expected "a key") text
  | budget + 1 => do
      let (part, rest) ← keyPart (dropSpaces text)
      match dropSpaces rest with
      | '.' :: rest => do
          let (parts, rest) ← keyPath budget rest
          return (part :: parts, rest)
      | rest => return ([part], rest)

def key (text : List Char) : Except Error (List String × List Char) := do
  let (parts, rest) ← keyPath (text.length + 1) text
  if depthLimit < parts.length then refuse .tooDeep text else return (parts, rest)

/-! ## Values -/

/-- A character of a value without quotes and brackets. -/
def isScalarChar (c : Char) : Bool :=
  !(isSpace c || isControl c ||
    ['#', ',', '=', '"', '\'', '[', ']', '\x7b', '\x7d'].contains c)

/-- The characters of a value without quotes and brackets. A time of day may follow a
date after one blank. -/
def scalarText (text : List Char) : List Char :=
  let first := text.takeWhile isScalarChar
  match text.dropWhile isScalarChar with
  | ' ' :: c :: rest =>
      if Scalar.isDate first && c.isDigit then first ++ ' ' :: (c :: rest).takeWhile isScalarChar
      else first
  | _ => first

def scalar (text : List Char) : Except Error (Value × List Char) :=
  let read := scalarText text
  if read.isEmpty then refuse (.expected "a value") text
  else
    match Scalar.ofText? read with
    | some value => .ok (value, text.drop read.length)
    | none => refuse (.badScalar (String.ofList read)) text

/-- Adds what an assignment says, or stops in front of some text. -/
def assigned (keys : List String) (value : Value) (entries : Entries) (rest : List Char) :
    Except Error Entries :=
  match entries.assign keys.dropLast (keys.getLastD "") value with
  | .ok entries => .ok entries
  | .error fault => refuse fault rest

mutual

/-- A value. The budget counts the characters that are left, and lists and tables may
lead so many levels deeper. -/
def value (budget levels : Nat) (text : List Char) : Except Error (Value × List Char) :=
  match budget, levels, text with
  | budget + 1, levels + 1, '[' :: rest => do
      let (values, rest) ← listItems budget levels [] rest
      return (.items false values, rest)
  | budget + 1, levels + 1, '\x7b' :: rest => do
      let (entries, rest) ← tableEntries budget levels [] rest
      return (.table .inline entries, rest)
  | _, 0, '[' :: _ => refuse .tooDeep text
  | _, 0, '\x7b' :: _ => refuse .tooDeep text
  | _, _, '"' :: rest => do
      let (inside, rest) ← Quoted.read ('"' :: rest)
      return (.text inside, rest)
  | _, _, '\'' :: rest => do
      let (inside, rest) ← Quoted.read ('\'' :: rest)
      return (.text inside, rest)
  | _, _, _ => scalar text

/-- The rest of a list after the items already read, latest first. -/
def listItems (budget levels : Nat) (found : List Value) (text : List Char) :
    Except Error (List Value × List Char) :=
  match budget with
  | 0 => refuse (.expected "a value") text
  | budget + 1 => do
      let start ← afterFiller false text
      match start with
      | ']' :: rest => return (found.reverse, rest)
      | start => do
          let (item, rest) ← value budget levels start
          let next ← afterFiller false rest
          match next with
          | ',' :: rest => listItems budget levels (item :: found) rest
          | ']' :: rest => return ((item :: found).reverse, rest)
          | next => refuse (.expected "a comma or a closing bracket") next

/-- The rest of a table that is written out, after the entries already read. -/
def tableEntries (budget levels : Nat) (found : Entries) (text : List Char) :
    Except Error (Entries × List Char) :=
  match budget with
  | 0 => refuse (.expected "a key") text
  | budget + 1 => do
      let start ← afterFiller false text
      match start with
      | '\x7d' :: rest => return (found, rest)
      | start => do
          let (keys, rest) ← key start
          let next ← afterFiller false rest
          match next with
          | '=' :: rest => do
              let (item, rest) ← value budget levels (← afterFiller false rest)
              let found ← assigned keys item found start
              let next ← afterFiller false rest
              match next with
              | ',' :: rest => tableEntries budget levels found rest
              | '\x7d' :: rest => return (found, rest)
              | next => refuse (.expected "a comma or a closing brace") next
          | next => refuse (.expected "an equals sign") next

end

end GodotGraph.Toml
