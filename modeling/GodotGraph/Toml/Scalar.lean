import GodotGraph.Moment
import GodotGraph.Text.Numeral
import GodotGraph.Toml.Value

/-!
Contract: values that are written without quotes and brackets.

Owns: truth values, integers in four bases, numbers with a fraction or an exponent, and
dates and times.
-/

set_option autoImplicit false

namespace GodotGraph.Toml.Scalar

/-! ## Integers -/

/-- Digits without the underscores between them. -/
def joined? (base : Nat) : List Char → Option (List Char)
  | [] => none
  | [c] => (Text.digit? base c).map fun _ => [c]
  | c :: '_' :: rest => (Text.digit? base c).bind fun _ => (joined? base rest).map (c :: ·)
  | c :: rest => (Text.digit? base c).bind fun _ => (joined? base rest).map (c :: ·)

/-- A natural number with digits of a base. -/
def natural? (base : Nat) (text : List Char) : Option Nat :=
  (joined? base text).bind (Text.number? base)

def decimalDigits? (text : List Char) : Option (List Char) :=
  (joined? 10 text).filter fun digits => digits.head? ≠ some '0' || digits.length = 1

/-- A number may carry a sign: whether it is a minus, and the rest. -/
def unsigned : List Char → Bool × List Char
  | '-' :: rest => (true, rest)
  | '+' :: rest => (false, rest)
  | text => (false, text)

/-- Integers fit into 128 bits, with a sign or without one. -/
def inRange (n : Int) : Bool := -(Nat.pow 2 127 : Int) ≤ n && n < Nat.pow 2 128

/-- An integer. Bases other than ten have a mark in front and no sign. -/
def integer? (text : List Char) : Option Int :=
  let number? :=
    match text with
    | '0' :: 'x' :: rest => (natural? 16 rest).map Int.ofNat
    | '0' :: 'o' :: rest => (natural? 8 rest).map Int.ofNat
    | '0' :: 'b' :: rest => (natural? 2 rest).map Int.ofNat
    | _ =>
        let (negative, rest) := unsigned text
        ((decimalDigits? rest).bind (Text.number? 10)).map fun n =>
          if negative then -(n : Int) else n
  number?.filter inRange

/-! ## Numbers with a fraction or an exponent -/

/-- A character of a run of digits. -/
def isDigitOrMark (c : Char) : Bool := c.isDigit || c = '_'

/-- The digits after a point, which are none if there is no point. -/
def fraction? : List Char → Option (List Char × List Char)
  | '.' :: rest =>
      (joined? 10 (rest.takeWhile isDigitOrMark)).map (·, rest.dropWhile isDigitOrMark)
  | rest => some ([], rest)

/-- The exponent at the end of a number, which is zero if there is none. -/
def exponent? : List Char → Option Int
  | [] => some 0
  | c :: rest =>
      if c = 'e' || c = 'E' then
        let (negative, digits) := unsigned rest
        (natural? 10 digits).map fun n => if negative then -(n : Int) else n
      else none

/-- The least number that is too great for 53 binary digits and an exponent of eleven. -/
def overflowLimit : Nat := Nat.pow 2 1024 - Nat.pow 2 970

/-- The number is too great. Its length decides unless it is close to the limit. -/
def overflows (digits : List Char) (exponent : Int) : Bool :=
  let significant := digits.dropWhile (· = '0')
  let size := (significant.length : Int) + exponent
  let number := (Text.number? 10 significant).getD 0
  if significant.isEmpty || size < 300 then false
  else if 400 < size then true
  else if 0 ≤ exponent then overflowLimit ≤ number * Nat.pow 10 exponent.toNat
  else overflowLimit * Nat.pow 10 (-exponent).toNat ≤ number

/-- A number with a fraction or an exponent or both. -/
def isDecimal (text : List Char) : Bool :=
  let body := (unsigned text).2
  if body = "inf".toList || body = "nan".toList then true
  else
    let rest := body.dropWhile isDigitOrMark
    match decimalDigits? (body.takeWhile isDigitOrMark), fraction? rest with
    | some whole, some (digits, tail) =>
        match exponent? tail with
        | some exponent => !rest.isEmpty && !overflows (whole ++ digits) (exponent - digits.length)
        | none => false
    | _, _ => false

/-! ## Dates and times -/

def afterDate? (text : List Char) : Option (List Char) := do
  let (year, rest) ← Timestamp.takeNumber? 4 text
  let rest ← Timestamp.takeOne? ['-'] rest
  let (month, rest) ← Timestamp.takeNumber? 2 rest
  let rest ← Timestamp.takeOne? ['-'] rest
  let (day, rest) ← Timestamp.takeNumber? 2 rest
  if 1 ≤ month && month ≤ 12 && 1 ≤ day && (day : Int) ≤ Timestamp.daysInMonth year month then
    some rest
  else none

/-- The text after a time of day, which may leave the seconds out. -/
def afterTime? (text : List Char) : Option (List Char) := do
  let (hour, rest) ← Timestamp.takeNumber? 2 text
  let rest ← Timestamp.takeOne? [':'] rest
  let (minute, rest) ← Timestamp.takeNumber? 2 rest
  if hour < 24 && minute < 60 then
    match rest with
    | ':' :: rest => do
        let (second, rest) ← Timestamp.takeNumber? 2 rest
        if second ≤ 60 then (Timestamp.takeFraction? rest).map Prod.snd else none
    | _ => some rest
  else none

/-- The whole text is an offset from universal time. -/
def isOffset : List Char → Bool
  | ['Z'] => true
  | ['z'] => true
  | [sign, h1, h2, ':', m1, m2] =>
      (sign = '+' || sign = '-') && [h1, h2, m1, m2].all Char.isDigit &&
        Timestamp.numberOfDigits [h1, h2] < 24 && Timestamp.numberOfDigits [m1, m2] < 60
  | _ => false

/-- A time of day, perhaps with an offset where that is allowed. -/
def isTime (offsets : Bool) (text : List Char) : Bool :=
  match afterTime? text with
  | some rest => rest.isEmpty || (offsets && isOffset rest)
  | none => false

/-- A date, a time of day, or both. -/
def isMoment (text : List Char) : Bool :=
  match afterDate? text with
  | some [] => true
  | some (separator :: rest) =>
      (separator = 'T' || separator = 't' || separator = ' ') && isTime true rest
  | none => isTime false text

def isDate (text : List Char) : Bool := afterDate? text = some []

/-! ## All of them -/

/-- The value that a text without quotes and brackets stands for. -/
def ofText? (text : List Char) : Option Value :=
  if text = "true".toList then some (.boolean true)
  else if text = "false".toList then some (.boolean false)
  else
    match integer? text with
    | some n => some (.integer n)
    | none =>
        if isDecimal text then some .decimal
        else if isMoment text then some .moment
        else none

end GodotGraph.Toml.Scalar
