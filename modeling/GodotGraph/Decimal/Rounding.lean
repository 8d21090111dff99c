/-!
Contract: exact rounding of quotients of natural numbers.

Owns:
- rounding to the nearest natural number, where a half goes to the even neighbour;
- the decimal text of a quotient with a fixed number of places;
- the nearest number with 53 binary digits, which is what a quotient becomes when it
  is computed with machine numbers.

All of it is arithmetic on natural numbers; no machine number is involved.
-/

set_option autoImplicit false

namespace GodotGraph.Decimal

/-- The natural number nearest to a quotient; a half goes to the even one. -/
def roundHalfEven (num den : Nat) : Nat :=
  let floor := num / den
  let twice := 2 * (num % den)
  if twice < den then floor
  else if den < twice then floor + 1
  else if floor % 2 = 0 then floor
  else floor + 1

/-- Digits with zeros in front up to a width. -/
def padded (width : Nat) (n : Nat) : String :=
  let digits := Nat.toDigits 10 n
  String.ofList (List.replicate (width - digits.length) '0' ++ digits)

/-- The quotient with a fixed number of decimal places. -/
def fixed (places num den : Nat) : String :=
  let unit := Nat.pow 10 places
  let scaled := roundHalfEven (num * unit) den
  toString (scaled / unit) ++ "." ++ padded places (scaled % unit)

structure Quotient where
  num : Nat
  den : Nat
  deriving DecidableEq, Repr

namespace Quotient

/-- The exponent of the last of 53 binary digits of a positive quotient, with its
sign apart: how far to shift left, and how far to shift right. -/
def unitShift (value : Quotient) : Nat × Nat :=
  let high := value.num.log2
  let low := value.den.log2
  let tooHigh :=
    if low ≤ high then value.num < value.den <<< (high - low)
    else value.num <<< (low - high) < value.den
  let lead := if tooHigh then high else high + 1
  (lead - (low + 53), low + 53 - lead)

/-- The nearest quotient with 53 binary digits; a half goes to the even one. -/
def nearestBinary (value : Quotient) : Quotient :=
  if value.num = 0 then ⟨0, 1⟩
  else
    let (left, right) := value.unitShift
    ⟨roundHalfEven (value.num <<< right) (value.den <<< left) <<< left, 1 <<< right⟩

/-- A natural number with 53 binary digits. -/
def ofNat (n : Nat) : Quotient := nearestBinary ⟨n, 1⟩

def dividedBy (left right : Quotient) : Quotient :=
  nearestBinary ⟨left.num * right.den, left.den * right.num⟩

def times (left right : Quotient) : Quotient :=
  nearestBinary ⟨left.num * right.num, left.den * right.den⟩

def text (places : Nat) (value : Quotient) : String :=
  fixed places value.num value.den

end Quotient

/-- How many of a hundred parts the first number is of the second; nothing of nothing
is none. -/
def percentage (part whole : Nat) : Quotient :=
  if whole = 0 then ⟨0, 1⟩
  else ((Quotient.ofNat part).dividedBy (Quotient.ofNat whole)).times (Quotient.ofNat 100)

/-- Rounding moves a quotient by at most half a unit. -/
theorem roundHalfEven_near (num den : Nat) (positive : 0 < den) :
    2 * num ≤ 2 * den * roundHalfEven num den + den ∧
      2 * den * roundHalfEven num den ≤ 2 * num + den := by
  have split := Nat.div_add_mod num den
  have below := Nat.mod_lt num positive
  have expand : 2 * den * (num / den + 1) = 2 * (den * (num / den)) + 2 * den := by
    rw [Nat.mul_add, Nat.mul_one, Nat.mul_assoc]
  have same : 2 * den * (num / den) = 2 * (den * (num / den)) := Nat.mul_assoc ..
  unfold roundHalfEven
  dsimp only
  split
  · omega
  · split
    · omega
    · split <;> omega

end GodotGraph.Decimal
