import GodotGraph.Pattern.Basic
import GodotGraph.Proofs.Pattern.Reader
import Mathlib.Data.PFun

/-!
Contract: matching on byte offsets into a whole text.

Owns:
- slices of a text, which only exist at the boundaries of its characters;
- one operation on offsets for each way of composing matchers;
- the run of a pattern from an offset.

A run is given the whole text and a number. Every look at the text is a slice, so a run has
no result if it asks for a slice outside the text or inside a character. Its loops have no
bound, so it has no result either if one of them goes on forever.

Does not own: that neither happens.
-/

set_option autoImplicit false

namespace GodotGraph.Pattern

/-- The text from an offset on, if a character starts there or the text ends there. -/
def sliceFrom? : List Char → Nat → Option (List Char)
  | text, 0 => some text
  | [], _ + 1 => none
  | c :: rest, offset + 1 =>
      if c.utf8Size ≤ offset + 1 then sliceFrom? rest (offset + 1 - c.utf8Size) else none

/-- The text from one offset to another, which must not come first. -/
def slice? (text : List Char) (first last : Nat) : Option (List Char) :=
  if first ≤ last then do
    let start ← sliceFrom? text first
    let rest ← sliceFrom? text last
    return Reader.between start rest
  else none

/-- The offset after a match or the mismatch, and the trail; nothing after a fault. -/
abbrev Landing := Option (Except Mismatch Nat × Trail)

/-- Matches from an offset and extends the trail. -/
abbrev Run := Nat → Trail → Landing

namespace Run

section

variable (text : List Char)

/-- The offset after the blanks that come next. -/
def skipBlanks (offset : Nat) : Option Nat := do
  let rest ← sliceFrom? text offset
  return offset + byteLength (rest.takeWhile Text.isBlank)

/-- The given text, standing as a whole word. -/
def keyword (label : String) (expected : List Char) : Run := fun offset trail => do
  let start ← skipBlanks text offset
  let rest ← sliceFrom? text start
  if expected.isPrefixOf rest then
    let after ← sliceFrom? text (start + byteLength expected)
    if endsWord after then return (.ok (start + byteLength expected), trail)
    else return (.error ⟨start, label⟩, trail)
  else return (.error ⟨start, label⟩, trail)

/-- The given text. -/
def literal (label : String) (expected : List Char) : Run := fun offset trail => do
  let start ← skipBlanks text offset
  let rest ← sliceFrom? text start
  if expected.isPrefixOf rest then return (.ok (start + byteLength expected), trail)
  else return (.error ⟨start, label⟩, trail)

/-- A character of the first kind and all characters of the second kind after it. -/
def word (label : String) (opens continues : Char → Bool) : Run := fun offset trail => do
  let start ← skipBlanks text offset
  match ← sliceFrom? text start with
  | c :: rest =>
      if opens c then
        return (.ok (start + c.utf8Size + byteLength (rest.takeWhile continues)), trail)
      else return (.error ⟨start, label⟩, trail)
  | [] => return (.error ⟨start, label⟩, trail)

/-- All runs one after the other. -/
def sequence : List Run → Run
  | [], offset, trail => return (.ok offset, trail)
  | run :: others, offset, trail => do
      match ← run offset trail with
      | (.ok stop, longer) => sequence others stop longer
      | (.error mismatch, longer) => return (.error mismatch, longer)

/-- The alternative that reads furthest, given the best one so far. -/
def longestOf (label : String) (offset : Nat) (trail : Trail) :
    List Run → Option (Nat × Trail) → Option Mismatch → Landing
  | [], some (stop, longer), _ => return (.ok stop, longer)
  | [], none, some mismatch => return (.error mismatch, trail)
  | [], none, none => return (.error ⟨offset, label⟩, trail)
  | run :: others, best, failure => do
      match ← run offset trail with
      | (.ok stop, longer) =>
          let better :=
            match best with
            | some (reached, _) => decide (reached < stop)
            | none => true
          longestOf label offset trail others (if better then some (stop, longer) else best) failure
      | (.error mismatch, _) =>
          longestOf label offset trail others best (Mismatch.furthest failure mismatch)

/-- The alternative that reads furthest; the first of these on a tie. -/
def longest (label : String) (alternatives : List Run) : Run := fun offset trail =>
  longestOf label offset trail alternatives none none

/-- The first alternative that matches, given the furthest mismatch so far. -/
def firstOf (label : String) (offset mark : Nat) :
    List Run → Option Mismatch → Trail → Landing
  | [], some mismatch, trail => return (.error mismatch, trail)
  | [], none, trail => return (.error ⟨offset, label⟩, trail)
  | run :: others, failure, trail => do
      match ← run offset trail with
      | (.ok stop, longer) => return (.ok stop, longer)
      | (.error mismatch, longer) =>
          firstOf label offset mark others (Mismatch.furthest failure mismatch) (longer.take mark)

/-- The first alternative that matches. -/
def first (label : String) (alternatives : List Run) : Run := fun offset trail =>
  firstOf label offset trail.length alternatives none trail

/-- Rounds until one of them gives a result. There is none after a fault, and none if every
round is followed by another. -/
noncomputable def loop {State Result : Type} (round : State → Option (Result ⊕ State))
    (start : State) : Option Result :=
  open scoped Classical in (PFun.fix (fun state => Part.ofOption (round state)) start).toOption

theorem loop_of_result {State Result : Type} {round : State → Option (Result ⊕ State)}
    {state : State} {result : Result} (last : round state = some (.inl result)) :
    loop round state = some result := by
  classical
  refine Part.toOption_eq_some_iff.2 (PFun.fix_stop ?_)
  simp [last]

theorem loop_of_state {State Result : Type} {round : State → Option (Result ⊕ State)}
    {state next : State} (goesOn : round state = some (.inr next)) :
    loop round state = loop round next := by
  have same : PFun.fix (fun state => Part.ofOption (round state)) state =
      PFun.fix (fun state => Part.ofOption (round state)) next :=
    PFun.fix_fwd_eq (by simp [goesOn])
  rw [loop, loop, same]

/-- What the run reads, or nothing. -/
def optional (run : Run) : Run := fun offset trail => do
  match ← run offset trail with
  | (.ok stop, longer) => return (.ok stop, longer)
  | (.error _, longer) => return (.ok offset, longer.take trail.length)

/-- A round goes on to another one if the run matches and reads something. -/
def again (run : Run) : Nat × Trail → Option ((Except Mismatch Nat × Trail) ⊕ (Nat × Trail))
  | (offset, trail) => do
      match ← run offset trail with
      | (.ok stop, longer) =>
          if offset < stop then return .inr (stop, longer) else return .inl (.ok offset, longer)
      | (.error _, longer) => return .inl (.ok offset, longer.take trail.length)

/-- Rounds of a run for as long as they match and read something. -/
noncomputable def zeroOrMore (run : Run) : Run := fun offset trail =>
  loop (again run) (offset, trail)

/-- A member of a group that may be read in any order. -/
structure Member where
  required : Bool
  label : String
  run : Run

/-- The first member that matches, with the trail after it and the members left. -/
def pick (offset mark : Nat) : List Member → Trail → Option (Option (Nat × List Member) × Trail)
  | [], trail => return (none, trail)
  | member :: others, trail => do
      match ← member.run offset trail with
      | (.ok stop, longer) => return (some (stop, others), longer)
      | (.error _, longer) =>
          match ← pick offset mark others (longer.take mark) with
          | (some (stop, left), final) => return (some (stop, member :: left), final)
          | (none, final) => return (none, final)

/-- The group is complete if no required member is left. -/
def settle (left : List Member) : Run := fun offset trail =>
  match left.find? fun member => member.required with
  | some missing => do return (.error ⟨← skipBlanks text offset, missing.label⟩, trail)
  | none => return (.ok offset, trail)

/-- A pick from the members left, or the end if none of them matches. -/
def pickOrSettle : List Member × Nat × Trail →
    Option ((Except Mismatch Nat × Trail) ⊕ (List Member × Nat × Trail))
  | (left, offset, trail) => do
      match ← pick offset trail.length left trail with
      | (some (stop, fewer), longer) => return .inr (fewer, stop, longer)
      | (none, same) => return .inl (← settle text left offset same)

/-- Picks from the members left until none of them matches. -/
noncomputable def anyOrder (group : List Member) : Run := fun offset trail =>
  loop (pickOrSettle text) (group, offset, trail)

/-- A look at one offset; the next one is behind the character that comes there. -/
def look (run : Run) (offset : Nat) : Option (Option Nat ⊕ Nat) := do
  match ← run offset [] with
  | (.ok _, _) => return .inl (some offset)
  | (.error _, _) =>
      match ← sliceFrom? text offset with
      | c :: _ => return .inr (offset + c.utf8Size)
      | [] => return .inl none

/-- The first offset from here on at which the run succeeds. -/
noncomputable def seek (run : Run) (offset : Nat) : Option (Option Nat) :=
  loop (look text run) offset

/-- Skips up to, but not over, the run; blanks before it are skipped too. -/
noncomputable def skipTo (label : String) (run : Run) : Run := fun offset trail => do
  match ← seek text run offset with
  | some found => return (.ok (← skipBlanks text found), trail)
  | none => return (.error ⟨offset, label⟩, trail)

/-- Reads nothing, if the run would succeed. -/
def ahead (run : Run) : Run := fun offset trail => do
  match ← run offset [] with
  | (.ok _, _) => return (.ok offset, trail)
  | (.error mismatch, _) => return (.error mismatch, trail)

/-- Reads nothing, if the run would fail. -/
def notAhead (label : String) (run : Run) : Run := fun offset trail => do
  match ← run offset [] with
  | (.ok _, _) => return (.error ⟨← skipBlanks text offset, label⟩, trail)
  | (.error _, _) => return (.ok offset, trail)

/-- Nothing but blanks is left. -/
def windowEnd (label : String) : Run := fun offset trail => do
  let last ← skipBlanks text offset
  if last = byteLength text then return (.ok last, trail)
  else return (.error ⟨last, label⟩, trail)

/-- Without the captures of the run. -/
def silent (run : Run) : Run := fun offset trail => do
  return ((← run offset []).1, trail)

/-- Captures what the run reads. A run that reads nothing may stop before the blanks that
are skipped here. -/
def named (name : String) (run : Run) : Run := fun offset trail => do
  let start ← skipBlanks text offset
  match ← run offset trail with
  | (.ok stop, longer) =>
      let value ← slice? text (min start stop) stop
      return (.ok stop, longer ++ [⟨name, String.ofList (Text.trim value)⟩])
  | (.error mismatch, longer) =>
      if mismatch.position ≤ start then return (.error ⟨mismatch.position, name⟩, longer)
      else return (.error mismatch, longer)

end

end Run

mutual

/-- The run of a pattern on the offsets of a text. -/
noncomputable def run (text : List Char) : Pattern → Run
  | keyword expected => Run.keyword text (keyword expected).describe expected.toList
  | literal expected => Run.literal text (literal expected).describe expected.toList
  | word opens continues =>
      Run.word text (word opens continues).describe opens.contains continues.contains
  | seq parts => Run.sequence (runs text parts)
  | longest alternatives => Run.longest (longest alternatives).describe (runs text alternatives)
  | first alternatives => Run.first (first alternatives).describe (runs text alternatives)
  | optional inner => Run.optional (run text inner)
  | zeroOrMore inner => Run.zeroOrMore (run text inner)
  | anyOrder group => Run.anyOrder text (memberRuns text group)
  | skipTo target => Run.skipTo text (skipTo target).describe (run text target)
  | ahead inner => Run.ahead (run text inner)
  | notAhead inner => Run.notAhead text (notAhead inner).describe (run text inner)
  | windowEnd => Run.windowEnd text windowEnd.describe
  | silent inner => Run.silent (run text inner)
  | named name inner => Run.named text name (run text inner)

/-- The runs of a list of patterns. -/
noncomputable def runs (text : List Char) : List Pattern → List Run
  | [] => []
  | pattern :: others => run text pattern :: runs text others

/-- The members of a group: an optional one stands for its inner pattern. -/
noncomputable def memberRuns (text : List Char) : List Pattern → List Run.Member
  | [] => []
  | optional inner :: others => ⟨false, inner.describe, run text inner⟩ :: memberRuns text others
  | pattern :: others => ⟨true, pattern.describe, run text pattern⟩ :: memberRuns text others

end

end GodotGraph.Pattern
