import GodotGraph.Pattern.Basic

/-!
Contract: what a pattern means, without a shared trail and without offsets.

Owns:
- readers, which give the text left after a match and the captures of that match
  alone, or the place where the match got stuck;
- one reader for each way of composing patterns;
- the place where a search stops, which is the first one at which its reader succeeds.

Does not own: agreement with the matchers. A place is the text left there, so a reader
has nothing to say about what stood before.
-/

set_option autoImplicit false

namespace GodotGraph.Pattern

/-- The text left where a match got stuck, and what was looked for there. -/
structure Stuck where
  rest : List Char
  expected : String
  deriving DecidableEq, Repr

namespace Stuck

/-- Of two places the one further on; the earlier found one on a tie. -/
def furthest (found : Option Stuck) (candidate : Stuck) : Option Stuck :=
  match found with
  | some stuck =>
      if stuck.rest.length ≤ candidate.rest.length then some stuck else some candidate
  | none => some candidate

end Stuck

/-- What is left of a text after a match, and the captures of the match. -/
structure Reading where
  rest : List Char
  captures : Trail
  deriving DecidableEq, Repr

/-- Reads from the start of a text. -/
abbrev Reader := List Char → Except Stuck Reading

/-- An identifier could end before this text. -/
def endsWord : List Char → Bool
  | [] => true
  | c :: _ => !Text.continuesIdentifier c

namespace Reader

/-- The given text, standing as a whole word. -/
def keyword (label : String) (expected : List Char) : Reader := fun text =>
  let solid := Text.trimStart text
  if expected.isPrefixOf solid && endsWord (solid.drop expected.length) then
    .ok ⟨solid.drop expected.length, []⟩
  else .error ⟨solid, label⟩

/-- The given text. -/
def literal (label : String) (expected : List Char) : Reader := fun text =>
  let solid := Text.trimStart text
  if expected.isPrefixOf solid then .ok ⟨solid.drop expected.length, []⟩
  else .error ⟨solid, label⟩

/-- A character of the first kind and all characters of the second kind after it. -/
def word (label : String) (opens continues : Char → Bool) : Reader := fun text =>
  match Text.trimStart text with
  | c :: rest =>
      if opens c then .ok ⟨rest.dropWhile continues, []⟩ else .error ⟨c :: rest, label⟩
  | [] => .error ⟨[], label⟩

/-- All readers one after the other. -/
def sequence : List Reader → Reader
  | [], text => .ok ⟨text, []⟩
  | reader :: others, text =>
      match reader text with
      | .error stuck => .error stuck
      | .ok found =>
          match sequence others found.rest with
          | .error stuck => .error stuck
          | .ok last => .ok ⟨last.rest, found.captures ++ last.captures⟩

/-- The alternative that leaves least, given the best one so far. -/
def longestOf (label : String) (text : List Char) :
    List Reader → Option Reading → Option Stuck → Except Stuck Reading
  | [], some best, _ => .ok best
  | [], none, some stuck => .error stuck
  | [], none, none => .error ⟨text, label⟩
  | reader :: others, best, failure =>
      match reader text with
      | .ok found =>
          let better :=
            match best with
            | some reached => decide (found.rest.length < reached.rest.length)
            | none => true
          longestOf label text others (if better then some found else best) failure
      | .error stuck => longestOf label text others best (Stuck.furthest failure stuck)

/-- The alternative that leaves least; the first of these on a tie. -/
def longest (label : String) (alternatives : List Reader) : Reader := fun text =>
  longestOf label text alternatives none none

/-- The first alternative that matches, given the furthest failure so far. -/
def firstOf (label : String) (text : List Char) :
    List Reader → Option Stuck → Except Stuck Reading
  | [], some stuck => .error stuck
  | [], none => .error ⟨text, label⟩
  | reader :: others, failure =>
      match reader text with
      | .ok found => .ok found
      | .error stuck => firstOf label text others (Stuck.furthest failure stuck)

/-- The first alternative that matches. -/
def first (label : String) (alternatives : List Reader) : Reader := fun text =>
  firstOf label text alternatives none

/-- What the reader reads, or nothing. -/
def optional (reader : Reader) : Reader := fun text =>
  match reader text with
  | .ok found => .ok found
  | .error _ => .ok ⟨text, []⟩

/-- At most so many rounds of a reader; a round that reads nothing is the last. -/
def rounds (reader : Reader) : Nat → List Char → Reading
  | 0, text => ⟨text, []⟩
  | count + 1, text =>
      match reader text with
      | .ok found =>
          if found.rest.length < text.length then
            let later := rounds reader count found.rest
            ⟨later.rest, found.captures ++ later.captures⟩
          else ⟨text, found.captures⟩
      | .error _ => ⟨text, []⟩

/-- As many rounds as match. -/
def zeroOrMore (reader : Reader) : Reader := fun text =>
  .ok (rounds reader (text.length + 1) text)

/-- A member of a group that may be read in any order. -/
structure Member where
  required : Bool
  label : String
  reader : Reader

/-- The first member that matches, and the members left. -/
def pick (text : List Char) : List Member → Option (Reading × List Member)
  | [] => none
  | member :: others =>
      match member.reader text with
      | .ok found => some (found, others)
      | .error _ => (pick text others).map fun picked => (picked.1, member :: picked.2)

/-- At most so many picks from the members left. The group is complete if no required
member is left then. -/
def picks : Nat → List Member → Reader
  | 0, left, text => settle left text
  | count + 1, left, text =>
      match pick text left with
      | some (found, fewer) =>
          match picks count fewer found.rest with
          | .error stuck => .error stuck
          | .ok last => .ok ⟨last.rest, found.captures ++ last.captures⟩
      | none => settle left text
where
  /-- Fails for the first required member that is left. -/
  settle (left : List Member) (text : List Char) : Except Stuck Reading :=
    match left.find? fun member => member.required with
    | some missing => .error ⟨Text.trimStart text, missing.label⟩
    | none => .ok ⟨text, []⟩

/-- All required members and any optional ones, in whatever order they come. -/
def anyOrder (members : List Member) : Reader :=
  picks members.length members

/-- The first end of the text at which the reader succeeds. -/
def seek (reader : Reader) : List Char → Option (List Char)
  | [] =>
      match reader [] with
      | .ok _ => some []
      | .error _ => none
  | c :: rest =>
      match reader (c :: rest) with
      | .ok _ => some (c :: rest)
      | .error _ => seek reader rest

/-- Skips up to, but not over, the reader; blanks before it are skipped too. -/
def skipTo (label : String) (reader : Reader) : Reader := fun text =>
  match seek reader text with
  | some found => .ok ⟨Text.trimStart found, []⟩
  | none => .error ⟨text, label⟩

/-- Reads nothing, if the reader would succeed. -/
def ahead (reader : Reader) : Reader := fun text =>
  match reader text with
  | .ok _ => .ok ⟨text, []⟩
  | .error stuck => .error stuck

/-- Reads nothing, if the reader would fail. -/
def notAhead (label : String) (reader : Reader) : Reader := fun text =>
  match reader text with
  | .ok _ => .error ⟨Text.trimStart text, label⟩
  | .error _ => .ok ⟨text, []⟩

/-- Nothing but blanks is left. -/
def windowEnd (label : String) : Reader := fun text =>
  let last := Text.trimStart text
  if last.isEmpty then .ok ⟨last, []⟩ else .error ⟨last, label⟩

/-- Without the captures of the reader. -/
def silent (reader : Reader) : Reader := fun text =>
  match reader text with
  | .ok found => .ok ⟨found.rest, []⟩
  | .error stuck => .error stuck

/-- The text from the first place to the second. -/
def between (start rest : List Char) : List Char :=
  start.take (start.length - rest.length)

/-- Captures what the reader reads, without blanks at its ends, after the captures made
inside it. A failure at the first character is one of the name. -/
def named (name : String) (reader : Reader) : Reader := fun text =>
  let start := Text.trimStart text
  match reader text with
  | .ok found =>
      .ok ⟨found.rest,
        found.captures ++ [⟨name, String.ofList (Text.trim (between start found.rest))⟩]⟩
  | .error stuck =>
      if start.length ≤ stuck.rest.length then .error ⟨stuck.rest, name⟩ else .error stuck

end Reader

mutual

/-- The reader of a pattern. -/
def reader : Pattern → Reader
  | keyword text => Reader.keyword (keyword text).describe text.toList
  | literal text => Reader.literal (literal text).describe text.toList
  | word opens continues =>
      Reader.word (word opens continues).describe opens.contains continues.contains
  | seq parts => Reader.sequence (readers parts)
  | longest alternatives => Reader.longest (longest alternatives).describe (readers alternatives)
  | first alternatives => Reader.first (first alternatives).describe (readers alternatives)
  | optional inner => Reader.optional (reader inner)
  | zeroOrMore inner => Reader.zeroOrMore (reader inner)
  | anyOrder group => Reader.anyOrder (memberReaders group)
  | skipTo target => Reader.skipTo (skipTo target).describe (reader target)
  | ahead inner => Reader.ahead (reader inner)
  | notAhead inner => Reader.notAhead (notAhead inner).describe (reader inner)
  | windowEnd => Reader.windowEnd windowEnd.describe
  | silent inner => Reader.silent (reader inner)
  | named name inner => Reader.named name (reader inner)

/-- The readers of a list of patterns. -/
def readers : List Pattern → List Reader
  | [] => []
  | pattern :: others => reader pattern :: readers others

/-- The members of a group: an optional one stands for its inner pattern. -/
def memberReaders : List Pattern → List Reader.Member
  | [] => []
  | optional inner :: others => ⟨false, inner.describe, reader inner⟩ :: memberReaders others
  | pattern :: others => ⟨true, pattern.describe, reader pattern⟩ :: memberReaders others

end

/-! ## Searches -/

section

variable {reader : Reader} {text : List Char}

theorem seek_of_ok {found : Reading} (read : reader text = .ok found) :
    Reader.seek reader text = some text := by
  cases text <;> simp [Reader.seek, read]

theorem seek_nil_of_error {stuck : Stuck} (read : reader [] = .error stuck) :
    Reader.seek reader [] = none := by
  simp [Reader.seek, read]

theorem seek_cons_of_error {c : Char} {rest : List Char} {stuck : Stuck}
    (read : reader (c :: rest) = .error stuck) :
    Reader.seek reader (c :: rest) = Reader.seek reader rest := by
  simp [Reader.seek, read]

/-- A search stops where its reader succeeds, and nowhere before. -/
theorem seek_eq_some {rest : List Char} (reached : Reader.seek reader text = some rest) :
    rest <:+ text ∧ (∃ found, reader rest = .ok found) ∧
      ∀ other found, other <:+ text → reader other = .ok found → other.length ≤ rest.length := by
  induction text with
  | nil =>
      cases read : reader [] with
      | error stuck =>
          rw [seek_nil_of_error read] at reached
          cases reached
      | ok found =>
          rw [seek_of_ok read] at reached
          cases reached
          exact ⟨List.suffix_refl _, ⟨found, read⟩, fun _ _ ends _ => ends.length_le⟩
  | cons c others inductionHypothesis =>
      cases read : reader (c :: others) with
      | ok found =>
          rw [seek_of_ok read] at reached
          cases reached
          exact ⟨List.suffix_refl _, ⟨found, read⟩, fun _ _ ends _ => ends.length_le⟩
      | error stuck =>
          rw [seek_cons_of_error read] at reached
          obtain ⟨ends, succeeds, nothingBefore⟩ := inductionHypothesis reached
          refine ⟨ends.trans (List.suffix_cons c others), succeeds, ?_⟩
          intro other found otherEnds readOther
          rcases List.suffix_cons_iff.1 otherEnds with rfl | later
          · rw [read] at readOther
            cases readOther
          · exact nothingBefore other found later readOther

/-- A search fails if its reader succeeds nowhere. -/
theorem seek_eq_none_iff :
    Reader.seek reader text = none ↔ ∀ rest, rest <:+ text → ∃ stuck, reader rest = .error stuck := by
  induction text with
  | nil =>
      simp only [List.suffix_nil, forall_eq]
      cases read : reader [] with
      | ok found => simp [seek_of_ok read]
      | error stuck => simp [seek_nil_of_error read]
  | cons c others inductionHypothesis =>
      simp only [List.suffix_cons_iff, forall_eq_or_imp]
      cases read : reader (c :: others) with
      | ok found => simp [seek_of_ok read]
      | error stuck => simp [seek_cons_of_error read, inductionHypothesis]

end

end GodotGraph.Pattern
