/-!
Contract: what can be wrong with a document.

Owns: the faults, where in the text they are, and the message on them.
-/

set_option autoImplicit false

namespace GodotGraph.Toml

inductive Fault where
  | expected (what : String)
  | control
  | unclosedText
  | badEscape
  | badScalar (text : String)
  | duplicateKey (key : String)
  | closedTable (key : String)
  | tooDeep
  | unfit (key : String)
  deriving DecidableEq, Repr

def Fault.message : Fault → String
  | expected what => "expected " ++ what
  | control => "control characters must be escaped"
  | unclosedText => "the text is not closed"
  | badEscape => "unknown escape sequence"
  | badScalar text => "not a value: " ++ text
  | duplicateKey key => "duplicate key: " ++ key
  | closedTable key => "cannot be extended: " ++ key
  | tooDeep => "nested too deeply"
  | unfit key => "unfit value for " ++ key

/-- A fault. If it lies at some place in the text, so many characters are left there. -/
structure Error where
  left : Option Nat
  fault : Fault
  deriving DecidableEq, Repr

/-- Stops reading in front of some text. -/
def refuse {α : Type} (fault : Fault) (rest : List Char) : Except Error α :=
  .error ⟨some rest.length, fault⟩

/-- The place at the end of some text, as a line and a column. -/
def placeAfter (text : List Char) : String :=
  let column := (text.reverse.takeWhile (· ≠ '\n')).length + 1
  " at line " ++ toString (text.count '\n' + 1) ++ ", column " ++ toString column

def Error.message (error : Error) (text : String) : String :=
  let place :=
    match error.left with
    | some left => placeAfter (text.toList.take (text.length - left))
    | none => ""
  "TOML parse error" ++ place ++ ": " ++ error.fault.message

end GodotGraph.Toml
