import GodotGraph.Decimal.Rounding

/-!
Contract: values in the JSON notation.

Owns: values, writing them on one line or indented, and looking into them.

Fields are written in the order in which they are given.
-/

set_option autoImplicit false

namespace GodotGraph.Text

inductive JsonValue where
  | null
  | boolean (b : Bool)
  | number (n : Nat)
  /-- A number that is not a natural one, as it is written. -/
  | decimal (digits : String)
  | text (s : String)
  | items (values : List JsonValue)
  | fields (entries : List (String × JsonValue))
  deriving Inhabited, Repr

namespace JsonValue

def hexDigit (n : Nat) : Char := Nat.digitChar n

/-- One character inside double quotes. Only quotes, backslashes and controls are
escaped. -/
def escaped (c : Char) : String :=
  if c = '"' then "\\\""
  else if c = '\\' then "\\\\"
  else if c = '\n' then "\\n"
  else if c = '\r' then "\\r"
  else if c = '\t' then "\\t"
  else if c.toNat = 8 then "\\b"
  else if c.toNat = 12 then "\\f"
  else if c.toNat < 32 then
    "\\u00" ++ String.ofList [hexDigit (c.toNat / 16), hexDigit (c.toNat % 16)]
  else c.toString

def quote (s : String) : String :=
  "\"" ++ String.join (s.toList.map escaped) ++ "\""

def ofOption {α : Type} (value : α → JsonValue) : Option α → JsonValue
  | some held => value held
  | none => null

def texts (values : List String) : JsonValue := items (values.map text)

/-! ## Looking into values -/

def boolean? : JsonValue → Option Bool
  | boolean b => some b
  | _ => none

def number? : JsonValue → Option Nat
  | number n => some n
  | _ => none

def text? : JsonValue → Option String
  | text s => some s
  | _ => none

def items? {α : Type} (read : JsonValue → Option α) : JsonValue → Option (List α)
  | items values => values.mapM read
  | _ => none

def optional? {α : Type} (read : JsonValue → Option α) : JsonValue → Option (Option α)
  | null => some none
  | value => (read value).map some

/-- The value of a field of an object. A field that is not there has no value. -/
def field (name : String) : JsonValue → JsonValue
  | fields entries => (entries.lookup name).getD null
  | _ => null

/-- A name. It may also be the only field of an object, without a value. -/
def name? : JsonValue → Option String
  | text s => some s
  | fields [(name, null)] => some name
  | _ => none

/-- The object of a record with some fields. Their values may also be in a list, all of
them and in order. -/
def record? (names : List String) : JsonValue → Option JsonValue
  | fields entries => some (fields entries)
  | items values => if values.length = names.length then some (fields (names.zip values)) else none
  | _ => none

/-- No other fields than these are in an object. -/
def hasOnly (names : List String) : JsonValue → Bool
  | fields entries => entries.all fun entry => names.contains entry.1
  | _ => false

/-! ## Layout -/

/-- What separates the parts of a list or an object. -/
structure Layout where
  /-- Blanks for each level of nesting; none means one line. -/
  indent : Option String
  deriving DecidableEq, Repr

namespace Layout

/-- Everything on one line. -/
def compact : Layout := ⟨none⟩

/-- Two blanks for each level. -/
def pretty : Layout := ⟨some "  "⟩

/-- The line end before a part at some depth. -/
def lineBreak (layout : Layout) (depth : Nat) : String :=
  match layout.indent with
  | none => ""
  | some blanks => "\n" ++ String.join (List.replicate depth blanks)

/-- What stands between the name and the value of a field. -/
def colon (layout : Layout) : String :=
  if layout.indent.isSome then ": " else ":"

/-- The parts between two brackets, each on a line of its own if there are lines. -/
def enclose (layout : Layout) (depth : Nat) (first last : String) (parts : List String) : String :=
  match parts with
  | [] => first ++ last
  | _ :: _ =>
      first ++ layout.lineBreak (depth + 1) ++
        String.intercalate ("," ++ layout.lineBreak (depth + 1)) parts ++
        layout.lineBreak depth ++ last

end Layout

mutual

/-- The value as text, at some depth. -/
def render (layout : Layout) (depth : Nat) : JsonValue → String
  | null => "null"
  | boolean b => if b then "true" else "false"
  | number n => toString n
  | decimal digits => digits
  | text s => quote s
  | items values => layout.enclose depth "[" "]" (renderItems layout (depth + 1) values)
  | fields entries =>
      layout.enclose depth "\x7b" "\x7d" (renderFields layout (depth + 1) entries)

def renderItems (layout : Layout) (depth : Nat) : List JsonValue → List String
  | [] => []
  | value :: others => render layout depth value :: renderItems layout depth others

def renderFields (layout : Layout) (depth : Nat) : List (String × JsonValue) → List String
  | [] => []
  | (name, value) :: others =>
      (quote name ++ layout.colon ++ render layout depth value) :: renderFields layout depth others

end

def write (layout : Layout) (value : JsonValue) : String := render layout 0 value

end JsonValue

end GodotGraph.Text
