import GodotGraph.Decimal.Rounding
import GodotGraph.Text.Blank

/-!
Contract: durations and points in time.

Owns:
- durations and their short text;
- points in time as seconds from the start of 1970, their calendar text, and reading
  such a text with its offset from universal time, in an exact and in a loose form.

A second that was inserted at the end of a minute shares the number of the second
before it and has more than a billion nanoseconds.
-/

set_option autoImplicit false

namespace GodotGraph

structure Duration where
  seconds : Nat
  nanos : Nat
  deriving DecidableEq, Repr

namespace Duration

def zero : Duration := ⟨0, 0⟩

/-- Milliseconds below a second, thousandths below a minute, minutes and whole seconds
from there on. -/
def text (duration : Duration) : String :=
  let millis := duration.nanos / 1000000
  if duration.seconds = 0 then toString millis ++ "ms"
  else if duration.seconds < 60 then
    toString duration.seconds ++ "." ++ Decimal.padded 3 millis ++ "s"
  else toString (duration.seconds / 60) ++ "m " ++ toString (duration.seconds % 60) ++ "s"

end Duration

structure Timestamp where
  seconds : Int
  nanos : Nat
  deriving DecidableEq, Repr

namespace Timestamp

def epoch : Timestamp := ⟨0, 0⟩

/-! ## The calendar

Years are counted from March, so that a leap day is the last day of its year. -/

/-- The days from the start of 1970 to a date. -/
def daysOfDate (year month day : Int) : Int :=
  let shifted := if month ≤ 2 then year - 1 else year
  let era := shifted.fdiv 400
  let yearOfEra := shifted - era * 400
  let marchMonth := if month ≤ 2 then month + 9 else month - 3
  let dayOfYear := (153 * marchMonth + 2).fdiv 5 + day - 1
  let dayOfEra := yearOfEra * 365 + yearOfEra.fdiv 4 - yearOfEra.fdiv 100 + dayOfYear
  era * 146097 + dayOfEra - 719468

/-- The year, month and day so many days from the start of 1970. -/
def dateOfDays (days : Int) : Int × Int × Int :=
  let shifted := days + 719468
  let era := shifted.fdiv 146097
  let dayOfEra := shifted - era * 146097
  let yearOfEra :=
    (dayOfEra - dayOfEra.fdiv 1460 + dayOfEra.fdiv 36524 - dayOfEra.fdiv 146096).fdiv 365
  let dayOfYear := dayOfEra - (365 * yearOfEra + yearOfEra.fdiv 4 - yearOfEra.fdiv 100)
  let marchMonth := (5 * dayOfYear + 2).fdiv 153
  let day := dayOfYear - (153 * marchMonth + 2).fdiv 5 + 1
  let month := if marchMonth < 10 then marchMonth + 3 else marchMonth - 9
  let year := yearOfEra + era * 400 + (if month ≤ 2 then 1 else 0)
  (year, month, day)

def isLeap (year : Int) : Bool :=
  year % 4 = 0 && (year % 100 ≠ 0 || year % 400 = 0)

def daysInMonth (year month : Int) : Int :=
  if month = 2 then (if isLeap year then 29 else 28)
  else if month = 4 || month = 6 || month = 9 || month = 11 then 30
  else 31

/-! ## Writing -/

/-- Four digits, and a sign if these are not enough. -/
def yearText (year : Int) : String :=
  if year < 0 then "-" ++ Decimal.padded 4 year.natAbs
  else if 9999 < year then "+" ++ Decimal.padded 5 year.natAbs
  else Decimal.padded 4 year.natAbs

/-- Nothing, three, six or nine digits after a point. -/
def fractionText (nanos : Nat) : String :=
  if nanos = 0 then ""
  else if nanos % 1000000 = 0 then "." ++ Decimal.padded 3 (nanos / 1000000)
  else if nanos % 1000 = 0 then "." ++ Decimal.padded 6 (nanos / 1000)
  else "." ++ Decimal.padded 9 nanos

/-- The date and the time of day in universal time. -/
def text (moment : Timestamp) : String :=
  let days := moment.seconds.fdiv 86400
  let secondOfDay := (moment.seconds - days * 86400).toNat
  let (year, month, day) := dateOfDays days
  let inserted := moment.nanos / 1000000000
  yearText year ++ "-" ++ Decimal.padded 2 month.toNat ++ "-" ++ Decimal.padded 2 day.toNat ++
    "T" ++ Decimal.padded 2 (secondOfDay / 3600) ++ ":" ++
    Decimal.padded 2 (secondOfDay / 60 % 60) ++ ":" ++
    Decimal.padded 2 (secondOfDay % 60 + inserted) ++
    fractionText (moment.nanos % 1000000000) ++ "Z"

/-! ## Reading -/

def numberOfDigits (digits : List Char) : Nat :=
  digits.foldl (fun number digit => number * 10 + (digit.toNat - '0'.toNat)) 0

/-- At least so many digits, at most so many of them, and what follows. -/
def takeDigits? (least most : Nat) (text : List Char) : Option (Nat × List Char) :=
  let digits := (text.take most).takeWhile Char.isDigit
  if digits.length < least then none
  else some (numberOfDigits digits, text.drop digits.length)

/-- Exactly so many digits, and what follows them. -/
def takeNumber? (count : Nat) (text : List Char) : Option (Nat × List Char) :=
  takeDigits? count count text

/-- One of some characters, and what follows it. -/
def takeOne? (choices : List Char) : List Char → Option (List Char)
  | [] => none
  | c :: rest => if choices.contains c then some rest else none

/-- Digits after a point as nanoseconds; digits after the ninth do not count. -/
def takeFraction? (text : List Char) : Option (Nat × List Char) :=
  match text with
  | '.' :: rest =>
      let digits := rest.takeWhile Char.isDigit
      if digits.isEmpty then none
      else
        let kept := digits.take 9
        some (numberOfDigits kept * Nat.pow 10 (9 - kept.length), rest.dropWhile Char.isDigit)
  | _ => some (0, text)

/-- How closely a text keeps to the written form. The exact form has four digits for the
year and two for every other number. The loose form takes fewer digits, and blanks in
front of a number, a mark or the offset. Its years may have a sign and then any number of
digits; its offsets may do without the colon, or name universal time. -/
inductive Form where
  | exact
  | loose
  deriving DecidableEq, Repr

namespace Form

/-- The text after the blanks that the form allows. -/
def skip : Form → List Char → List Char
  | exact, text => text
  | loose, text => Text.trimStart text

def takeNumber? (form : Form) (width : Nat) (text : List Char) : Option (Nat × List Char) :=
  match form with
  | exact => Timestamp.takeNumber? width text
  | loose => takeDigits? 1 width (Text.trimStart text)

def takeYear? (form : Form) (text : List Char) : Option (Int × List Char) :=
  match form, form.skip text with
  | loose, '-' :: rest => (takeDigits? 1 rest.length rest).map fun (year, rest) => (-year, rest)
  | loose, '+' :: rest => (takeDigits? 1 rest.length rest).map fun (year, rest) => (year, rest)
  | _, rest => (form.takeNumber? 4 rest).map fun (year, rest) => (year, rest)

def takeMark? (form : Form) (mark : Char) (text : List Char) : Option (List Char) :=
  takeOne? [mark] (form.skip text)

/-- What separates the hours and the minutes of an offset. -/
def takeColon? (form : Form) (text : List Char) : Option (List Char) :=
  match form with
  | exact => takeOne? [':'] text
  | loose => some (text.dropWhile fun c => c = ':' || Text.isBlank c)

def namesUniversalTime (form : Form) (text : List Char) : Bool :=
  form = loose && (text.take 3).map Char.toUpper = ['U', 'T', 'C']

end Form

/-- The factor that a sign stands for. -/
def sign? (c : Char) : Option Int :=
  if c = '+' then some 1 else if c = '-' || c = '−' then some (-1) else none

/-- The offset from universal time in seconds, and what follows it. -/
def takeOffset? (form : Form) (text : List Char) : Option (Int × List Char) :=
  if form.namesUniversalTime text then some (0, text.drop 3)
  else
    match text with
    | [] => none
    | c :: rest =>
        if c = 'Z' || c = 'z' then some (0, rest)
        else do
          let factor ← sign? c
          let (hours, rest) ← takeNumber? 2 rest
          let rest ← form.takeColon? rest
          let (minutes, rest) ← takeNumber? 2 rest
          if hours < 24 && minutes < 60 then
            some (factor * ((hours * 3600 + minutes * 60 : Nat) : Int), rest)
          else none

/-- A date as the number of days from the start of 1970, and what follows it. -/
def takeDate? (form : Form) (text : List Char) : Option (Int × List Char) := do
  let (year, rest) ← form.takeYear? text
  let rest ← form.takeMark? '-' rest
  let (month, rest) ← form.takeNumber? 2 rest
  let rest ← form.takeMark? '-' rest
  let (day, rest) ← form.takeNumber? 2 rest
  if 1 ≤ month && month ≤ 12 && 1 ≤ day && (day : Int) ≤ daysInMonth year month then
    some (daysOfDate year month day, rest)
  else none

/-- A time of day as a number of seconds and nanoseconds, and what follows it. -/
def takeTime? (form : Form) (text : List Char) : Option (Nat × Nat × List Char) := do
  let (hour, rest) ← form.takeNumber? 2 text
  let rest ← form.takeMark? ':' rest
  let (minute, rest) ← form.takeNumber? 2 rest
  let rest ← form.takeMark? ':' rest
  let (second, rest) ← form.takeNumber? 2 rest
  let (nanos, rest) ← takeFraction? rest
  let inserted := if second = 60 then 1 else 0
  if hour < 24 && minute < 60 && second ≤ 60 then
    some (hour * 3600 + minute * 60 + second - inserted, nanos + inserted * 1000000000, rest)
  else none

/-- The number of seconds up to the first day of the calendar. -/
def firstSecond : Int := daysOfDate (-262143) 1 1 * 86400

/-- The number of seconds up to the end of the last day of the calendar. -/
def endSecond : Int := daysOfDate 262143 1 1 * 86400

def isInCalendar (seconds : Int) : Bool := firstSecond ≤ seconds && seconds < endSecond

/-- Reads a date, a time of day and an offset. Both the time at that offset and the
universal time have to be in the calendar. -/
def ofText? (form : Form) (text : String) : Option Timestamp := do
  let (days, rest) ← takeDate? form text.toList
  let rest ← takeOne? ['T', 't', ' '] rest
  let (secondOfDay, nanos, rest) ← takeTime? form rest
  let (offset, rest) ← takeOffset? form (form.skip rest)
  let there : Int := days * 86400 + secondOfDay
  if isInCalendar there && isInCalendar (there - offset) && (form.skip rest).isEmpty then
    some ⟨there - offset, nanos⟩
  else none

end Timestamp

end GodotGraph
