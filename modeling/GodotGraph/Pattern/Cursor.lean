import GodotGraph.Text.Alphanumeric
import GodotGraph.Text.Blank

/-!
Contract: positions in the text that a pattern reads.

Owns:
- the cursor, which carries the rest of the text and the bytes before it;
- skipping blanks, reading a given text, reading a run of characters;
- the text between two cursors.

A cursor stands between two characters by construction, so no step can land
inside one. Offsets count the bytes of the 8-bit encoding form.
-/

set_option autoImplicit false

namespace GodotGraph.Pattern

def byteLength (text : List Char) : Nat :=
  text.foldr (fun c bytes => c.utf8Size + bytes) 0

/-- What is still to be read, and how many bytes were read before. -/
structure Cursor where
  offset : Nat
  rest : List Char
  deriving DecidableEq, Repr

namespace Cursor

def start (text : List Char) : Cursor := ⟨0, text⟩

/-- Past the next characters, as many as given. -/
def advance (cursor : Cursor) (count : Nat) : Cursor :=
  ⟨cursor.offset + byteLength (cursor.rest.take count), cursor.rest.drop count⟩

def skipBlanks (cursor : Cursor) : Cursor :=
  cursor.advance (cursor.rest.takeWhile Text.isBlank).length

/-- Past the given text, if it comes next. -/
def strip? (cursor : Cursor) (expected : List Char) : Option Cursor :=
  if expected.isPrefixOf cursor.rest then some (cursor.advance expected.length) else none

/-- The next character does not continue an identifier. -/
def atBoundary (cursor : Cursor) : Bool :=
  match cursor.rest with
  | [] => true
  | c :: _ => !Text.continuesIdentifier c

/-- The text from the first cursor to the second; empty if the second comes first. -/
def textTo (first second : Cursor) : List Char :=
  first.rest.take (first.rest.length - second.rest.length)

end Cursor

end GodotGraph.Pattern
