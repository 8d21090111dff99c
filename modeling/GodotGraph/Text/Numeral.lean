/-!
Contract: natural numbers as people write them.

Owns: digits in bases up to sixteen, the number of some digits, and numbers that fit
into a machine word.
-/

set_option autoImplicit false

namespace GodotGraph.Text

/-- The value of a digit, if it is one in the base. -/
def digit? (base : Nat) (c : Char) : Option Nat :=
  let value? :=
    if '0' ≤ c && c ≤ '9' then some (c.toNat - '0'.toNat)
    else if 'a' ≤ c && c ≤ 'f' then some (c.toNat - 'a'.toNat + 10)
    else if 'A' ≤ c && c ≤ 'F' then some (c.toNat - 'A'.toNat + 10)
    else none
  value?.filter fun value => value < base

/-- The number of some digits, the first of which counts most, after a number that was
already read. -/
def continueNumber? (base : Nat) : Nat → List Char → Option Nat
  | number, [] => some number
  | number, c :: rest => do
      let value ← digit? base c
      continueNumber? base (number * base + value) rest

/-- The number of at least one digit and nothing else. -/
def number? (base : Nat) (digits : List Char) : Option Nat :=
  if digits.isEmpty then none else continueNumber? base 0 digits

/-- Numbers below this fit into a machine word. -/
def wordLimit : Nat := Nat.pow 2 64

/-- The decimal number in a text, perhaps after a plus sign, if it fits into a word. -/
def word? (text : String) : Option Nat :=
  let digits :=
    match text.toList with
    | '+' :: rest => rest
    | all => all
  (number? 10 digits).filter fun number => number < wordLimit

/-- The value of a digit lies below the base. -/
theorem digit?_lt {base value : Nat} {c : Char} (found : digit? base c = some value) :
    value < base := by
  simpa using (Option.filter_eq_some_iff.1 found).2

end GodotGraph.Text
