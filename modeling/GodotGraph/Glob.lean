/-!
Contract: patterns for file names and paths.

Owns:
- the parts of a pattern, and reading a pattern;
- matching a whole text against a pattern.

A star stands for any text, slashes included. Two stars stand for any number of whole
directories and must be a path component of their own.
-/

set_option autoImplicit false

namespace GodotGraph

/-- Some characters between brackets: one, or all in a range. -/
inductive Glob.Range where
  | single (c : Char)
  | span (first last : Char)
  deriving DecidableEq, Repr

inductive Glob.Part where
  /-- Exactly this character. -/
  | char (c : Char)
  /-- Any one character. -/
  | anyChar
  /-- Any text. -/
  | anyText
  /-- Any number of whole directories. -/
  | anyDirectories
  /-- One of the characters between brackets. -/
  | within (ranges : List Glob.Range)
  /-- None of the characters between brackets. -/
  | except (ranges : List Glob.Range)
  deriving DecidableEq, Repr

structure Glob where
  parts : List Glob.Part
  deriving DecidableEq, Repr

namespace Glob

/-! ## Errors -/

inductive Fault where
  | tooManyStars
  | partialDirectories
  | badRange
  deriving DecidableEq, Repr

/-- A fault and the number of characters before it. -/
structure Error where
  position : Nat
  fault : Fault
  deriving DecidableEq, Repr

namespace Fault

def message : Fault → String
  | tooManyStars => "wildcards are either regular `*` or recursive `**`"
  | partialDirectories => "recursive wildcards must form a single path component"
  | badRange => "invalid range pattern"

end Fault

def Error.message (error : Error) : String :=
  "Pattern syntax error near position " ++ toString error.position ++ ": " ++ error.fault.message

/-! ## Reading -/

/-- The ranges between brackets. A dash counts only between two characters. -/
def ranges : List Char → List Range
  | first :: '-' :: last :: rest => .span first last :: ranges rest
  | c :: rest => .single c :: ranges rest
  | [] => []

/-- Characters up to a closing bracket, which may not be the first of them, and the
characters after it. -/
def bracketed? : List Char → Option (List Char × List Char)
  | [] => none
  | first :: rest =>
      match rest.dropWhile (· ≠ ']') with
      | [] => none
      | _ :: after => some (first :: rest.takeWhile (· ≠ ']'), after)

/-- Parts read so far, latest first, with one more. A run of directory wildcards counts
as one, except at the very start of a pattern. -/
def addDirectories (found : List Part) : List Part :=
  match found with
  | .anyDirectories :: _ :: _ => found
  | _ => .anyDirectories :: found

/-- Reads the rest of a pattern. The position is the number of characters before it;
the previous character decides whether two stars may stand there. The rest gets
shorter with every step, which the budget counts. -/
def read (budget position : Nat) (previous : Option Char) (found : List Part) :
    List Char → Except Error (List Part)
  | [] => .ok found.reverse
  | c :: rest =>
      match budget with
      | 0 => .ok found.reverse
      | budget + 1 =>
          if c = '?' then read budget (position + 1) (some c) (.anyChar :: found) rest
          else if c = '*' then
            let more := rest.takeWhile (· = '*')
            let after := rest.dropWhile (· = '*')
            match more.length with
            | 0 => read budget (position + 1) (some c) (.anyText :: found) rest
            | 1 =>
                if previous = none || previous = some '/' then
                  match after with
                  | [] => read budget (position + 2) (some c) (addDirectories found) []
                  | next :: others =>
                      if next = '/' then
                        read budget (position + 3) (some next) (addDirectories found) others
                      else .error ⟨position + 2, .partialDirectories⟩
                else .error ⟨position - 1, .partialDirectories⟩
            | _ => .error ⟨position + 2, .tooManyStars⟩
          else if c = '[' then
            let negated := rest.head? = some '!'
            match bracketed? (if negated then rest.drop 1 else rest) with
            | none => .error ⟨position, .badRange⟩
            | some (inside, after) =>
                let inner := ranges inside
                let part := if negated then Part.except inner else Part.within inner
                let width := inside.length + (if negated then 3 else 2)
                read budget (position + width) (some ']') (part :: found) after
          else read budget (position + 1) (some c) (.char c :: found) rest

def ofText (text : String) : Except Error Glob :=
  (read text.length 0 none [] text.toList).map Glob.mk

/-! ## Matching -/

/-- How an attempt to match ended. -/
inductive Verdict where
  | matched
  | mismatch
  /-- The text ended before the pattern did. -/
  | tooShort
  deriving DecidableEq, Repr

def Range.contains : Range → Char → Bool
  | single expected, c => expected = c
  | span first last, c => first ≤ c && c ≤ last

/-- A part that stands for one character takes this one. -/
def Part.takes : Part → Char → Bool
  | char expected, c => expected = c
  | anyChar, _ => true
  | within ranges, c => ranges.any fun range => range.contains c
  | except ranges, c => !ranges.any fun range => range.contains c
  | anyText, _ => false
  | anyDirectories, _ => false

/-- Tries the rest of a pattern after each further character; for directories only
after a slash. At the end of the text the rest is tried once more. -/
def wander (directories : Bool) (attempt : List Char → Verdict) : List Char → Verdict
  | [] => attempt []
  | c :: rest =>
      if directories && c ≠ '/' then wander directories attempt rest
      else
        match attempt rest with
        | .mismatch => wander directories attempt rest
        | verdict => verdict

/-- Tries the rest of a pattern at once, and then further on. -/
def spread (directories : Bool) (attempt : List Char → Verdict) (text : List Char) : Verdict :=
  match attempt text with
  | .mismatch => wander directories attempt text
  | verdict => verdict

/-- Matches a whole text against some parts. -/
def verdict : List Part → List Char → Verdict
  | [], [] => .matched
  | [], _ :: _ => .mismatch
  | .anyText :: parts, text => spread false (verdict parts) text
  | .anyDirectories :: parts, text => spread true (verdict parts) text
  | _ :: _, [] => .tooShort
  | part :: parts, c :: rest => if part.takes c then verdict parts rest else .mismatch

/-- The whole text matches the pattern. -/
def accepts (glob : Glob) (text : String) : Bool :=
  verdict glob.parts text.toList = .matched

end Glob

end GodotGraph
