import GodotGraph.Pattern.Cursor

/-!
Contract: matchers and the ways of building larger ones.

Owns:
- the trail of captures that all parts of a match share;
- one building operation for each way of composing patterns.

A matcher appends captures to the trail. One that fails may leave captures of
its finished parts behind, so an operation that goes on after a failure first
cuts the trail back to the length it had before.

Does not own: which pattern stands for which matcher.
-/

set_option autoImplicit false

namespace GodotGraph.Pattern

/-- Where a match failed and what was looked for there. -/
structure Mismatch where
  position : Nat
  expected : String
  deriving DecidableEq, Repr

namespace Mismatch

def message (mismatch : Mismatch) : String :=
  "expected " ++ mismatch.expected ++ " at position " ++ toString mismatch.position

/-- Of two mismatches the one that lies further on; the earlier found one on a tie. -/
def furthest (found : Option Mismatch) (candidate : Mismatch) : Option Mismatch :=
  match found with
  | some mismatch =>
      if candidate.position ≤ mismatch.position then some mismatch else some candidate
  | none => some candidate

end Mismatch

/-- A piece of matched text under a name. -/
structure Capture where
  name : String
  value : String
  deriving DecidableEq, Repr

/-- All captures of a match so far, in the order in which they were made. -/
abbrev Trail := List Capture

/-- The cursor after the match, or the mismatch. -/
abbrev Outcome := Except Mismatch Cursor

/-- Reads from a cursor and extends the trail. -/
abbrev Matcher := Cursor → Trail → Outcome × Trail

namespace Matcher

/-- The given text, standing as a whole word. -/
def keyword (label : String) (expected : List Char) : Matcher := fun cursor trail =>
  let start := cursor.skipBlanks
  match start.strip? expected with
  | some next =>
      if next.atBoundary then (.ok next, trail) else (.error ⟨start.offset, label⟩, trail)
  | none => (.error ⟨start.offset, label⟩, trail)

def literal (label : String) (expected : List Char) : Matcher := fun cursor trail =>
  let start := cursor.skipBlanks
  match start.strip? expected with
  | some next => (.ok next, trail)
  | none => (.error ⟨start.offset, label⟩, trail)

/-- A character of the first kind and all characters of the second kind after it. -/
def word (label : String) (opens continues : Char → Bool) : Matcher := fun cursor trail =>
  let start := cursor.skipBlanks
  match start.rest with
  | c :: rest =>
      if opens c then (.ok (start.advance (1 + (rest.takeWhile continues).length)), trail)
      else (.error ⟨start.offset, label⟩, trail)
  | [] => (.error ⟨start.offset, label⟩, trail)

def sequence : List Matcher → Matcher
  | [], cursor, trail => (.ok cursor, trail)
  | matcher :: others, cursor, trail =>
      match matcher cursor trail with
      | (.ok next, longer) => sequence others next longer
      | (.error mismatch, longer) => (.error mismatch, longer)

/-- The alternative that reads furthest, given the best one so far. -/
def longestOf (label : String) (cursor : Cursor) (trail : Trail) :
    List Matcher → Option (Cursor × Trail) → Option Mismatch → Outcome × Trail
  | [], some (next, longer), _ => (.ok next, longer)
  | [], none, some mismatch => (.error mismatch, trail)
  | [], none, none => (.error ⟨cursor.offset, label⟩, trail)
  | matcher :: others, best, failure =>
      match matcher cursor trail with
      | (.ok next, longer) =>
          let better :=
            match best with
            | some (reached, _) => decide (reached.offset < next.offset)
            | none => true
          longestOf label cursor trail others (if better then some (next, longer) else best) failure
      | (.error mismatch, _) =>
          longestOf label cursor trail others best (Mismatch.furthest failure mismatch)

/-- The alternative that reads furthest; the first of these on a tie. -/
def longest (label : String) (alternatives : List Matcher) : Matcher := fun cursor trail =>
  longestOf label cursor trail alternatives none none

/-- The first alternative that matches, given the furthest mismatch so far. -/
def firstOf (label : String) (cursor : Cursor) (mark : Nat) :
    List Matcher → Option Mismatch → Trail → Outcome × Trail
  | [], some mismatch, trail => (.error mismatch, trail)
  | [], none, trail => (.error ⟨cursor.offset, label⟩, trail)
  | matcher :: others, failure, trail =>
      match matcher cursor trail with
      | (.ok next, longer) => (.ok next, longer)
      | (.error mismatch, longer) =>
          firstOf label cursor mark others (Mismatch.furthest failure mismatch) (longer.take mark)

def first (label : String) (alternatives : List Matcher) : Matcher := fun cursor trail =>
  firstOf label cursor trail.length alternatives none trail

/-- What the matcher reads, or nothing. -/
def optional (matcher : Matcher) : Matcher := fun cursor trail =>
  match matcher cursor trail with
  | (.ok next, longer) => (.ok next, longer)
  | (.error _, longer) => (.ok cursor, longer.take trail.length)

/-- At most so many rounds of a matcher; a round that reads nothing is the last. -/
def rounds (matcher : Matcher) : Nat → Matcher
  | 0, cursor, trail => (.ok cursor, trail)
  | count + 1, cursor, trail =>
      match matcher cursor trail with
      | (.ok next, longer) =>
          if cursor.offset < next.offset then rounds matcher count next longer
          else (.ok cursor, longer)
      | (.error _, longer) => (.ok cursor, longer.take trail.length)

/-- As many rounds as match. Every round but the last reads a character, so there
are never more rounds than characters left and one. -/
def zeroOrMore (matcher : Matcher) : Matcher := fun cursor trail =>
  rounds matcher (cursor.rest.length + 1) cursor trail

/-- A member of a group that may be read in any order. -/
structure Member where
  required : Bool
  label : String
  matcher : Matcher

/-- The first member that matches, with the trail after it and the members left. -/
def pick (cursor : Cursor) (mark : Nat) :
    List Member → Trail → Option (Cursor × List Member) × Trail
  | [], trail => (none, trail)
  | member :: others, trail =>
      match member.matcher cursor trail with
      | (.ok next, longer) => (some (next, others), longer)
      | (.error _, longer) =>
          match pick cursor mark others (longer.take mark) with
          | (some (next, left), final) => (some (next, member :: left), final)
          | (none, final) => (none, final)

/-- The group is complete if no required member is left. -/
def settle (left : List Member) (cursor : Cursor) (trail : Trail) : Outcome × Trail :=
  match left.find? fun member => member.required with
  | some missing => (.error ⟨cursor.skipBlanks.offset, missing.label⟩, trail)
  | none => (.ok cursor, trail)

/-- At most so many picks from the members left. -/
def picks : Nat → List Member → Matcher
  | 0, left, cursor, trail => settle left cursor trail
  | count + 1, left, cursor, trail =>
      match pick cursor trail.length left trail with
      | (some (next, fewer), longer) => picks count fewer next longer
      | (none, same) => settle left cursor same

/-- All required members and any optional ones, in whatever order they come.
Every pick uses up a member. -/
def anyOrder (members : List Member) : Matcher :=
  picks members.length members

/-- The first cursor from here on at which the matcher succeeds. -/
def seek (matcher : Matcher) (offset : Nat) (rest : List Char) : Option Cursor :=
  match matcher ⟨offset, rest⟩ [] with
  | (.ok _, _) => some ⟨offset, rest⟩
  | (.error _, _) =>
      match rest with
      | [] => none
      | c :: others => seek matcher (offset + c.utf8Size) others

/-- Skips up to, but not over, the matcher; blanks before it are skipped too. -/
def skipTo (label : String) (matcher : Matcher) : Matcher := fun cursor trail =>
  match seek matcher cursor.offset cursor.rest with
  | some found => (.ok found.skipBlanks, trail)
  | none => (.error ⟨cursor.offset, label⟩, trail)

/-- Reads nothing, if the matcher would succeed. -/
def ahead (matcher : Matcher) : Matcher := fun cursor trail =>
  match matcher cursor [] with
  | (.ok _, _) => (.ok cursor, trail)
  | (.error mismatch, _) => (.error mismatch, trail)

/-- Reads nothing, if the matcher would fail. -/
def notAhead (label : String) (matcher : Matcher) : Matcher := fun cursor trail =>
  match matcher cursor [] with
  | (.ok _, _) => (.error ⟨cursor.skipBlanks.offset, label⟩, trail)
  | (.error _, _) => (.ok cursor, trail)

/-- Nothing but blanks is left. -/
def windowEnd (label : String) : Matcher := fun cursor trail =>
  let last := cursor.skipBlanks
  if last.rest.isEmpty then (.ok last, trail) else (.error ⟨last.offset, label⟩, trail)

def silent (matcher : Matcher) : Matcher := fun cursor trail =>
  ((matcher cursor []).1, trail)

/-- Captures what the matcher reads, without blanks at its ends, after the captures
made inside it. A mismatch at the first character is one of the name. -/
def named (name : String) (matcher : Matcher) : Matcher := fun cursor trail =>
  let start := cursor.skipBlanks
  match matcher cursor trail with
  | (.ok next, longer) =>
      (.ok next, longer ++ [⟨name, String.ofList (Text.trim (start.textTo next))⟩])
  | (.error mismatch, longer) =>
      if mismatch.position ≤ start.offset then (.error ⟨mismatch.position, name⟩, longer)
      else (.error mismatch, longer)

end Matcher

end GodotGraph.Pattern
