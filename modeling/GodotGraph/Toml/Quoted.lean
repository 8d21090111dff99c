import GodotGraph.Text.Numeral
import GodotGraph.Toml.Error

/-!
Contract: texts between quotes.

Owns: the four forms, on one line or several, with escapes or without, and the blanks
and line ends that the forms share with the rest of a document.

Three double quotes open a text on several lines; so do three single ones. The quotes
that close it are the last three of at most five.
-/

set_option autoImplicit false

namespace GodotGraph.Toml

/-- A character that may not stand for itself. -/
def isControl (c : Char) : Bool :=
  (c < ' ' && c ≠ '\t') || c = '\x7f'

/-- A blank inside a line. -/
def isSpace (c : Char) : Bool := c = ' ' || c = '\t'

def dropSpaces (text : List Char) : List Char := text.dropWhile isSpace

/-- The text after a line end, if it begins with one. -/
def afterBreak? : List Char → Option (List Char)
  | '\n' :: rest => some rest
  | '\r' :: '\n' :: rest => some rest
  | _ => none

/-- The text after blanks and line ends. -/
def dropLines : List Char → List Char
  | '\r' :: '\n' :: rest => dropLines rest
  | c :: rest => if isSpace c || c = '\n' then dropLines rest else c :: rest
  | [] => []

namespace Quoted

/-! ## Escapes -/

/-- The character with so many hexadecimal digits at the front of the text. -/
def codePoint (width : Nat) (text : List Char) : Except Error (Char × List Char) :=
  let digits := text.take width
  match if digits.length = width then Text.number? 16 digits else none with
  | some number =>
      if number.isValidChar then .ok (Char.ofNat number, text.drop width)
      else refuse .badEscape text
  | none => refuse .badEscape text

/-- The character that follows a backslash stands for. -/
def escape : List Char → Except Error (Char × List Char)
  | 'b' :: rest => .ok ('\x08', rest)
  | 't' :: rest => .ok ('\t', rest)
  | 'n' :: rest => .ok ('\n', rest)
  | 'f' :: rest => .ok ('\x0c', rest)
  | 'r' :: rest => .ok ('\r', rest)
  | 'e' :: rest => .ok ('\x1b', rest)
  | '"' :: rest => .ok ('"', rest)
  | '\\' :: rest => .ok ('\\', rest)
  | 'x' :: rest => codePoint 2 rest
  | 'u' :: rest => codePoint 4 rest
  | 'U' :: rest => codePoint 8 rest
  | rest => refuse .badEscape rest

/-! ## One line -/

/-- The rest of a text in double quotes, after characters already read, latest first.
The budget counts the characters that are left. -/
def basic (budget : Nat) (found text : List Char) : Except Error (String × List Char) :=
  match budget, text with
  | _ + 1, '"' :: rest => .ok (String.ofList found.reverse, rest)
  | budget + 1, '\\' :: rest => do
      let (c, rest) ← escape rest
      basic budget (c :: found) rest
  | budget + 1, c :: rest =>
      if isControl c then refuse .control text else basic budget (c :: found) rest
  | _, _ => refuse .unclosedText text

/-- The rest of a text in single quotes, which knows no escapes. -/
def plain (text : List Char) : Except Error (String × List Char) :=
  let inside := text.takeWhile (· ≠ '\'')
  match text.dropWhile (· ≠ '\'') with
  | [] => refuse .unclosedText text
  | _ :: rest =>
      if inside.any isControl then refuse .control text
      else .ok (String.ofList inside, rest)

/-! ## Several lines -/

/-- A run of quotes at the front of the text: the part that closes it, if there are
three, and the number of quotes that belong to the text. -/
def closing (quote : Char) (text : List Char) : Option (List Char) × Nat :=
  let run := (text.takeWhile (· = quote)).length
  if run < 3 then (none, run) else (some (text.drop (min run 5)), min run 5 - 3)

/-- The rest of a text on several lines. A backslash at the end of a line takes the
blanks and line ends after it away. -/
def long (quote : Char) (escapes : Bool) (budget : Nat) (found text : List Char) :
    Except Error (String × List Char) :=
  match budget, text with
  | budget + 1, c :: rest =>
      if c = quote then
        match closing quote text with
        | (some rest, extra) =>
            .ok (String.ofList (List.replicate extra quote ++ found).reverse, rest)
        | (none, run) =>
            long quote escapes budget (List.replicate run quote ++ found) (text.drop run)
      else if c = '\\' && escapes then
        if (afterBreak? (dropSpaces rest)).isSome then
          long quote escapes budget found (dropLines rest)
        else do
          let (c, rest) ← escape rest
          long quote escapes budget (c :: found) rest
      else if c = '\n' || (c = '\r' && rest.head? = some '\n') || !isControl c then
        long quote escapes budget (c :: found) rest
      else refuse .control text
  | _, _ => refuse .unclosedText text

/-- A text on several lines after its opening quotes. A line end right there does not
count. -/
def readLong (quote : Char) (escapes : Bool) (text : List Char) :
    Except Error (String × List Char) :=
  let body := (afterBreak? text).getD text
  long quote escapes (body.length + 1) [] body

/-- A text on one line, which begins with its opening quote. -/
def readShort : List Char → Except Error (String × List Char)
  | '"' :: rest => basic (rest.length + 1) [] rest
  | '\'' :: rest => plain rest
  | text => refuse (.expected "a quote") text

/-- A text of any form, which begins with its opening quotes. -/
def read : List Char → Except Error (String × List Char)
  | '"' :: '"' :: '"' :: rest => readLong '"' true rest
  | '\'' :: '\'' :: '\'' :: rest => readLong '\'' false rest
  | text => readShort text

/-- A text in single quotes stands for itself. -/
theorem plain_of_quoted {inside : List Char} (rest : List Char)
    (noQuote : ∀ c ∈ inside, c ≠ '\'') (noControl : ∀ c ∈ inside, isControl c = false) :
    plain (inside ++ '\'' :: rest) = .ok (String.ofList inside, rest) := by
  have taken : (inside ++ '\'' :: rest).takeWhile (· ≠ '\'') = inside := by
    rw [List.takeWhile_append_of_pos (by simpa using noQuote)]
    simp
  have left : (inside ++ '\'' :: rest).dropWhile (· ≠ '\'') = '\'' :: rest := by
    rw [List.dropWhile_append_of_pos (by simpa using noQuote)]
    simp
  have clean : inside.any isControl = false := by
    simpa [List.any_eq_false] using noControl
  unfold plain
  simp only [taken, left, clean, Bool.false_eq_true, if_false]

end Quoted

end GodotGraph.Toml
