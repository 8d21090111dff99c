import GodotGraph.Proofs.Pattern.Position
import GodotGraph.Proofs.Pattern.Reader
import Mathlib.Data.List.Forall2

/-!
Contract: agreement of matchers with readers.

Owns:
- the simulation of a reader by a matcher, from any cursor and with any trail;
- one simulation lemma for each way of composing patterns, and from them the one for
  all patterns.

A matcher that fails may leave captures behind. Every operation that goes on after a
failure cuts the trail back, so that the leftovers never show in a success.
-/

set_option autoImplicit false

namespace GodotGraph.Pattern

/-- The mismatch of a place where a reader got stuck. -/
def Cursor.mismatch (cursor : Cursor) (stuck : Stuck) : Mismatch :=
  ⟨(cursor.goto stuck.rest).offset, stuck.expected⟩

@[simp] theorem Cursor.mismatch_mk (cursor : Cursor) (rest : List Char) (expected : String) :
    cursor.mismatch ⟨rest, expected⟩ = ⟨(cursor.goto rest).offset, expected⟩ :=
  rfl

theorem Cursor.mismatch_goto {cursor : Cursor} {first : List Char} {stuck : Stuck}
    (firstEnds : first <:+ cursor.rest) (stuckEnds : stuck.rest <:+ first) :
    (cursor.goto first).mismatch stuck = cursor.mismatch stuck := by
  simp [Cursor.mismatch, Cursor.goto_goto firstEnds stuckEnds]

/-- A run from a cursor and a trail has the outcome that a reader gives for the text left
there: it moves to what the reader leaves and appends its captures, or fails where the
reader got stuck. -/
def Agrees (cursor : Cursor) (trail : Trail) (run : Outcome × Trail) :
    Except Stuck Reading → Prop
  | .ok found =>
      found.rest <:+ cursor.rest ∧ run = (.ok (cursor.goto found.rest), trail ++ found.captures)
  | .error stuck =>
      stuck.rest <:+ cursor.rest ∧
        ∃ left, run = (.error (cursor.mismatch stuck), trail ++ left)

/-- The matcher agrees with the reader from every cursor and with every trail. -/
def Simulates (matcher : Matcher) (reader : Reader) : Prop :=
  ∀ cursor trail, Agrees cursor trail (matcher cursor trail) (reader cursor.rest)

namespace Simulates

variable {matcher : Matcher} {reader : Reader}

theorem ok (simulates : Simulates matcher reader) {cursor : Cursor} {found : Reading}
    (read : reader cursor.rest = .ok found) (trail : Trail) :
    found.rest <:+ cursor.rest ∧
      matcher cursor trail = (.ok (cursor.goto found.rest), trail ++ found.captures) := by
  have both := simulates cursor trail
  rwa [read] at both

theorem error (simulates : Simulates matcher reader) {cursor : Cursor} {stuck : Stuck}
    (read : reader cursor.rest = .error stuck) (trail : Trail) :
    stuck.rest <:+ cursor.rest ∧
      ∃ left, matcher cursor trail = (.error (cursor.mismatch stuck), trail ++ left) := by
  have both := simulates cursor trail
  rwa [read] at both

end Simulates

/-! ## Single words -/

theorem atBoundary_eq (cursor : Cursor) : cursor.atBoundary = endsWord cursor.rest := by
  cases shape : cursor.rest <;> simp [Cursor.atBoundary, endsWord, shape]

theorem simulates_keyword (label : String) (expected : List Char) :
    Simulates (Matcher.keyword label expected) (Reader.keyword label expected) := by
  intro cursor trail
  have solid := Text.trimStart_suffix cursor.rest
  simp only [Reader.keyword, Matcher.keyword, Cursor.skipBlanks_eq_goto]
  cases starts : expected.isPrefixOf (Text.trimStart cursor.rest) with
  | false =>
      rw [Cursor.strip?_eq_none (by simpa using starts)]
      exact ⟨solid, [], by simp⟩
  | true =>
      have ending := (List.drop_suffix expected.length (Text.trimStart cursor.rest)).trans solid
      rw [Cursor.strip?_eq_some (by simpa using starts)]
      simp only [atBoundary_eq, Cursor.goto_rest]
      cases boundary : endsWord ((Text.trimStart cursor.rest).drop expected.length) with
      | false => exact ⟨solid, [], by simp⟩
      | true => exact ⟨ending, by simp [Cursor.goto_goto solid (List.drop_suffix _ _)]⟩

theorem simulates_literal (label : String) (expected : List Char) :
    Simulates (Matcher.literal label expected) (Reader.literal label expected) := by
  intro cursor trail
  have solid := Text.trimStart_suffix cursor.rest
  simp only [Reader.literal, Matcher.literal, Cursor.skipBlanks_eq_goto]
  cases starts : expected.isPrefixOf (Text.trimStart cursor.rest) with
  | false =>
      rw [Cursor.strip?_eq_none (by simpa using starts)]
      exact ⟨solid, [], by simp⟩
  | true =>
      have ending := (List.drop_suffix expected.length (Text.trimStart cursor.rest)).trans solid
      rw [Cursor.strip?_eq_some (by simpa using starts)]
      exact ⟨ending, by simp [Cursor.goto_goto solid (List.drop_suffix _ _)]⟩

theorem simulates_word (label : String) (opens continues : Char → Bool) :
    Simulates (Matcher.word label opens continues) (Reader.word label opens continues) := by
  intro cursor trail
  have solid := Text.trimStart_suffix cursor.rest
  simp only [Reader.word, Matcher.word, Cursor.skipBlanks_eq_goto, Cursor.goto_rest]
  cases shape : Text.trimStart cursor.rest with
  | nil => exact ⟨shape ▸ solid, [], by simp⟩
  | cons c rest =>
      rw [shape] at solid
      dsimp only
      cases hit : opens c with
      | false => exact ⟨solid, [], by simp⟩
      | true =>
          have dropped : (c :: rest).drop (1 + (rest.takeWhile continues).length) =
              rest.dropWhile continues := by
            rw [Nat.add_comm, List.drop_succ_cons, Text.drop_length_takeWhile]
          have inner : rest.dropWhile continues <:+ c :: rest :=
            (List.dropWhile_suffix continues).trans (List.suffix_cons c rest)
          refine ⟨inner.trans solid, ?_⟩
          simp [Cursor.advance_eq_goto, dropped, Cursor.goto_goto solid inner]

theorem simulates_windowEnd (label : String) :
    Simulates (Matcher.windowEnd label) (Reader.windowEnd label) := by
  intro cursor trail
  have solid := Text.trimStart_suffix cursor.rest
  simp only [Reader.windowEnd, Matcher.windowEnd, Cursor.skipBlanks_eq_goto, Cursor.goto_rest]
  cases last : (Text.trimStart cursor.rest).isEmpty with
  | false => exact ⟨solid, [], by simp⟩
  | true => exact ⟨solid, by simp⟩

/-! ## Sequences and choices -/

theorem simulates_sequence {matchers : List Matcher} {readers : List Reader}
    (each : List.Forall₂ Simulates matchers readers) :
    Simulates (Matcher.sequence matchers) (Reader.sequence readers) := by
  induction each with
  | nil => intro cursor trail; exact ⟨List.suffix_refl _, by simp [Matcher.sequence]⟩
  | @cons matcher reader matchers readers simulates _ inductionHypothesis =>
      intro cursor trail
      simp only [Matcher.sequence, Reader.sequence]
      cases read : reader cursor.rest with
      | error stuck =>
          obtain ⟨ending, left, run⟩ := simulates.error read trail
          exact ⟨ending, left, by rw [run]⟩
      | ok found =>
          obtain ⟨ending, run⟩ := simulates.ok read trail
          have later := inductionHypothesis (cursor.goto found.rest) (trail ++ found.captures)
          rw [Cursor.goto_rest] at later
          dsimp only
          rw [run]
          cases readOthers : Reader.sequence readers found.rest with
          | error stuck =>
              rw [readOthers] at later
              obtain ⟨inner, left, runOthers⟩ := later
              refine ⟨inner.trans ending, found.captures ++ left, ?_⟩
              simp [runOthers, Cursor.mismatch_goto ending inner]
          | ok last =>
              rw [readOthers] at later
              obtain ⟨inner, runOthers⟩ := later
              refine ⟨inner.trans ending, ?_⟩
              simp [runOthers, Cursor.goto_goto ending inner]

theorem furthest_map {cursor : Cursor} {found : Option Stuck} {candidate : Stuck}
    (foundEnds : ∀ stuck ∈ found, stuck.rest <:+ cursor.rest)
    (candidateEnds : candidate.rest <:+ cursor.rest) :
    Mismatch.furthest (found.map cursor.mismatch) (cursor.mismatch candidate) =
      (Stuck.furthest found candidate).map cursor.mismatch := by
  cases found with
  | none => rfl
  | some stuck =>
      have order := Cursor.offset_goto_le_iff candidateEnds (foundEnds stuck rfl)
      by_cases less : stuck.rest.length ≤ candidate.rest.length
      · simp [Mismatch.furthest, Stuck.furthest, Cursor.mismatch, less, order.2 less]
      · have more : ¬ (cursor.goto candidate.rest).offset ≤ (cursor.goto stuck.rest).offset :=
          fun before => less (order.1 before)
        simp [Mismatch.furthest, Stuck.furthest, Cursor.mismatch, less, more]

theorem furthest_ends {text : List Char} {found : Option Stuck} {candidate : Stuck}
    (foundEnds : ∀ stuck ∈ found, stuck.rest <:+ text) (candidateEnds : candidate.rest <:+ text) :
    ∀ stuck ∈ Stuck.furthest found candidate, stuck.rest <:+ text := by
  intro stuck member
  cases found with
  | none =>
      obtain rfl : candidate = stuck := by simpa [Stuck.furthest] using member
      exact candidateEnds
  | some earlier =>
      simp only [Stuck.furthest] at member
      split at member
      · exact foundEnds stuck member
      · obtain rfl : candidate = stuck := by simpa using member
        exact candidateEnds

/-- The furthest failure so far carries the search through the alternatives. -/
theorem agrees_firstOf {matchers : List Matcher} {readers : List Reader} (label : String)
    (each : List.Forall₂ Simulates matchers readers) (cursor : Cursor) (trail : Trail)
    (failure : Option Stuck) (ends : ∀ stuck ∈ failure, stuck.rest <:+ cursor.rest) :
    Agrees cursor trail
      (Matcher.firstOf label cursor trail.length matchers (failure.map cursor.mismatch) trail)
      (Reader.firstOf label cursor.rest readers failure) := by
  induction each generalizing failure with
  | nil =>
      cases failure with
      | none => exact ⟨List.suffix_refl _, [], by simp [Matcher.firstOf, Cursor.mismatch]⟩
      | some stuck => exact ⟨ends stuck rfl, [], by simp [Matcher.firstOf]⟩
  | @cons matcher reader matchers readers simulates _ inductionHypothesis =>
      simp only [Matcher.firstOf, Reader.firstOf]
      cases read : reader cursor.rest with
      | ok found =>
          obtain ⟨ending, run⟩ := simulates.ok read trail
          exact ⟨ending, by rw [run]⟩
      | error stuck =>
          obtain ⟨ending, left, run⟩ := simulates.error read trail
          rw [run]
          simp only [List.take_left, furthest_map ends ending]
          exact inductionHypothesis _ (furthest_ends ends ending)

theorem simulates_first {matchers : List Matcher} {readers : List Reader} (label : String)
    (each : List.Forall₂ Simulates matchers readers) :
    Simulates (Matcher.first label matchers) (Reader.first label readers) := by
  intro cursor trail
  exact agrees_firstOf label each cursor trail none (by simp)

/-- The best result so far and the furthest failure carry the search through the alternatives. -/
theorem agrees_longestOf {matchers : List Matcher} {readers : List Reader} (label : String)
    (each : List.Forall₂ Simulates matchers readers) (cursor : Cursor) (trail : Trail)
    (best : Option Reading) (failure : Option Stuck)
    (bestEnds : ∀ found ∈ best, found.rest <:+ cursor.rest)
    (failureEnds : ∀ stuck ∈ failure, stuck.rest <:+ cursor.rest) :
    Agrees cursor trail
      (Matcher.longestOf label cursor trail matchers
        (best.map fun found => (cursor.goto found.rest, trail ++ found.captures))
        (failure.map cursor.mismatch))
      (Reader.longestOf label cursor.rest readers best failure) := by
  induction each generalizing best failure with
  | nil =>
      cases best with
      | some found => exact ⟨bestEnds found rfl, by simp [Matcher.longestOf]⟩
      | none =>
          cases failure with
          | none => exact ⟨List.suffix_refl _, [], by simp [Matcher.longestOf, Cursor.mismatch]⟩
          | some stuck => exact ⟨failureEnds stuck rfl, [], by simp [Matcher.longestOf]⟩
  | @cons matcher reader matchers readers simulates _ inductionHypothesis =>
      simp only [Matcher.longestOf, Reader.longestOf]
      cases read : reader cursor.rest with
      | error stuck =>
          obtain ⟨ending, left, run⟩ := simulates.error read trail
          rw [run]
          simp only [furthest_map failureEnds ending]
          exact inductionHypothesis best _ bestEnds (furthest_ends failureEnds ending)
      | ok found =>
          obtain ⟨ending, run⟩ := simulates.ok read trail
          have takesFound := inductionHypothesis (some found) failure (by simpa using ending)
            failureEnds
          rw [run]
          cases best with
          | none => exact takesFound
          | some reached =>
              -- A cursor further on has less text left, so the two comparisons agree.
              have order := Cursor.offset_goto_lt_iff (bestEnds reached rfl) ending
              by_cases further : found.rest.length < reached.rest.length
              · simpa [further, order.2 further] using takesFound
              · have notLater : ¬ (cursor.goto reached.rest).offset <
                    (cursor.goto found.rest).offset := fun before => further (order.1 before)
                have keepsReached := inductionHypothesis (some reached) failure bestEnds failureEnds
                simpa [further, notLater] using keepsReached

theorem simulates_longest {matchers : List Matcher} {readers : List Reader} (label : String)
    (each : List.Forall₂ Simulates matchers readers) :
    Simulates (Matcher.longest label matchers) (Reader.longest label readers) := by
  intro cursor trail
  exact agrees_longestOf label each cursor trail none none (by simp) (by simp)

/-! ## Options and repetitions -/

theorem simulates_optional {matcher : Matcher} {reader : Reader}
    (simulates : Simulates matcher reader) :
    Simulates (Matcher.optional matcher) (Reader.optional reader) := by
  intro cursor trail
  simp only [Matcher.optional, Reader.optional]
  cases read : reader cursor.rest with
  | ok found =>
      obtain ⟨ending, run⟩ := simulates.ok read trail
      exact ⟨ending, by rw [run]⟩
  | error stuck =>
      obtain ⟨_, left, run⟩ := simulates.error read trail
      exact ⟨List.suffix_refl _, by simp [run]⟩

theorem simulates_rounds {matcher : Matcher} {reader : Reader}
    (simulates : Simulates matcher reader) (count : Nat) :
    Simulates (Matcher.rounds matcher count) fun text => .ok (Reader.rounds reader count text) := by
  induction count with
  | zero => intro cursor trail; exact ⟨List.suffix_refl _, by simp [Matcher.rounds, Reader.rounds]⟩
  | succ count inductionHypothesis =>
      intro cursor trail
      simp only [Matcher.rounds, Reader.rounds]
      cases read : reader cursor.rest with
      | error stuck =>
          obtain ⟨_, left, run⟩ := simulates.error read trail
          exact ⟨List.suffix_refl _, by simp [run]⟩
      | ok found =>
          obtain ⟨ending, run⟩ := simulates.ok read trail
          have order := Cursor.offset_goto_lt_iff (List.suffix_refl cursor.rest) ending
          rw [Cursor.goto_self] at order
          rw [run]
          by_cases moved : found.rest.length < cursor.rest.length
          · obtain ⟨inner, later⟩ :=
              inductionHypothesis (cursor.goto found.rest) (trail ++ found.captures)
            simp only [order.2 moved, moved, if_true]
            refine ⟨inner.trans ending, ?_⟩
            rw [later, Cursor.goto_goto ending inner]
            simp
          · have stays : ¬ cursor.offset < (cursor.goto found.rest).offset :=
              fun before => moved (order.1 before)
            simp only [stays, moved, if_false]
            exact ⟨List.suffix_refl _, by simp⟩

theorem simulates_zeroOrMore {matcher : Matcher} {reader : Reader}
    (simulates : Simulates matcher reader) :
    Simulates (Matcher.zeroOrMore matcher) (Reader.zeroOrMore reader) := by
  intro cursor trail
  exact simulates_rounds simulates (cursor.rest.length + 1) cursor trail

/-! ## Groups in any order -/

/-- The members of two groups are alike, and the matchers simulate the readers. -/
structure MemberSimulates (matched : Matcher.Member) (read : Reader.Member) : Prop where
  required : matched.required = read.required
  label : matched.label = read.label
  simulates : Simulates matched.matcher read.reader

theorem pick_agrees {matched : List Matcher.Member} {read : List Reader.Member}
    (each : List.Forall₂ MemberSimulates matched read) (cursor : Cursor) (trail : Trail) :
    match Reader.pick cursor.rest read with
    | some (found, readLeft) =>
        found.rest <:+ cursor.rest ∧
          ∃ left, List.Forall₂ MemberSimulates left readLeft ∧
            Matcher.pick cursor trail.length matched trail =
              (some (cursor.goto found.rest, left), trail ++ found.captures)
    | none => Matcher.pick cursor trail.length matched trail = (none, trail) := by
  induction each with
  | nil => simp [Matcher.pick, Reader.pick]
  | @cons member readMember matched read alike others inductionHypothesis =>
      simp only [Matcher.pick, Reader.pick]
      cases outcome : readMember.reader cursor.rest with
      | ok found =>
          obtain ⟨ending, run⟩ := alike.simulates.ok outcome trail
          exact ⟨ending, matched, others, by rw [run]⟩
      | error stuck =>
          obtain ⟨_, left, run⟩ := alike.simulates.error outcome trail
          rw [run]
          simp only [List.take_left]
          cases picked : Reader.pick cursor.rest read with
          | none =>
              rw [picked] at inductionHypothesis
              simp [inductionHypothesis]
          | some pair =>
              rw [picked] at inductionHypothesis
              obtain ⟨ending, fewer, alikeLeft, runOthers⟩ := inductionHypothesis
              exact ⟨ending, member :: fewer, alikeLeft.cons alike, by rw [runOthers]⟩

theorem settle_agrees {matched : List Matcher.Member} {read : List Reader.Member}
    (each : List.Forall₂ MemberSimulates matched read) (cursor : Cursor) (trail : Trail) :
    Agrees cursor trail (Matcher.settle matched cursor trail)
      (Reader.picks.settle read cursor.rest) := by
  induction each with
  | nil => exact ⟨List.suffix_refl _, by simp [Matcher.settle]⟩
  | @cons member readMember matched read alike _ inductionHypothesis =>
      simp only [Matcher.settle, Reader.picks.settle, List.find?_cons, alike.required] at *
      cases readMember.required with
      | false => exact inductionHypothesis
      | true =>
          refine ⟨Text.trimStart_suffix _, [], ?_⟩
          simp [alike.label, Cursor.skipBlanks_eq_goto]

theorem simulates_picks (count : Nat) {matched : List Matcher.Member} {read : List Reader.Member}
    (each : List.Forall₂ MemberSimulates matched read) :
    Simulates (Matcher.picks count matched) (Reader.picks count read) := by
  induction count generalizing matched read with
  | zero => intro cursor trail; exact settle_agrees each cursor trail
  | succ count inductionHypothesis =>
      intro cursor trail
      have step := pick_agrees each cursor trail
      simp only [Matcher.picks, Reader.picks]
      cases picked : Reader.pick cursor.rest read with
      | none =>
          rw [picked] at step
          rw [step]
          exact settle_agrees each cursor trail
      | some pair =>
          obtain ⟨found, readLeft⟩ := pair
          rw [picked] at step
          obtain ⟨ending, left, alikeLeft, run⟩ := step
          have later := inductionHypothesis alikeLeft (cursor.goto found.rest)
            (trail ++ found.captures)
          rw [Cursor.goto_rest] at later
          rw [run]
          dsimp only
          cases readOthers : Reader.picks count readLeft found.rest with
          | error stuck =>
              rw [readOthers] at later
              obtain ⟨inner, more, runOthers⟩ := later
              refine ⟨inner.trans ending, found.captures ++ more, ?_⟩
              simp [runOthers, Cursor.mismatch_goto ending inner]
          | ok last =>
              rw [readOthers] at later
              obtain ⟨inner, runOthers⟩ := later
              refine ⟨inner.trans ending, ?_⟩
              simp [runOthers, Cursor.goto_goto ending inner]

theorem simulates_anyOrder {matched : List Matcher.Member} {read : List Reader.Member}
    (each : List.Forall₂ MemberSimulates matched read) :
    Simulates (Matcher.anyOrder matched) (Reader.anyOrder read) := by
  unfold Matcher.anyOrder Reader.anyOrder
  rw [each.length_eq]
  exact simulates_picks _ each

/-! ## Looking ahead -/

/-- The search stops at the same place for both. -/
theorem seek_agrees {matcher : Matcher} {reader : Reader} (simulates : Simulates matcher reader)
    (cursor : Cursor) :
    (∀ found ∈ Reader.seek reader cursor.rest, found <:+ cursor.rest) ∧
      Matcher.seek matcher cursor.offset cursor.rest =
        (Reader.seek reader cursor.rest).map cursor.goto := by
  obtain ⟨offset, text⟩ := cursor
  induction text generalizing offset with
  | nil =>
      simp only [Matcher.seek, Reader.seek]
      cases read : reader [] with
      | ok found =>
          have here : reader (Cursor.mk offset []).rest = .ok found := read
          obtain ⟨_, run⟩ := simulates.ok here []
          simp [run, Cursor.goto]
      | error stuck =>
          have here : reader (Cursor.mk offset []).rest = .error stuck := read
          obtain ⟨_, left, run⟩ := simulates.error here []
          simp [run]
  | cons c rest inductionHypothesis =>
      simp only [Matcher.seek, Reader.seek]
      cases read : reader (c :: rest) with
      | ok found =>
          have here : reader (Cursor.mk offset (c :: rest)).rest = .ok found := read
          obtain ⟨_, run⟩ := simulates.ok here []
          simp [run, Cursor.goto]
      | error stuck =>
          have here : reader (Cursor.mk offset (c :: rest)).rest = .error stuck := read
          obtain ⟨_, left, run⟩ := simulates.error here []
          -- The search goes on after one character, which is where the cursor goes as well.
          obtain ⟨ends, later⟩ := inductionHypothesis (offset + c.utf8Size)
          have moved : (⟨offset, c :: rest⟩ : Cursor).goto rest = ⟨offset + c.utf8Size, rest⟩ := by
            simp only [Cursor.goto, byteLength, List.foldr_cons, Cursor.mk.injEq, and_true]
            omega
          rw [run]
          refine ⟨fun found member => (ends found member).trans (List.suffix_cons c rest), ?_⟩
          rw [later]
          cases reached : Reader.seek reader rest with
          | none => rfl
          | some found =>
              have inner := ends found reached
              have shorter : rest <:+ (Cursor.mk offset (c :: rest)).rest := List.suffix_cons c rest
              simp [← moved, Cursor.goto_goto shorter inner]

theorem simulates_skipTo {matcher : Matcher} {reader : Reader} (label : String)
    (simulates : Simulates matcher reader) :
    Simulates (Matcher.skipTo label matcher) (Reader.skipTo label reader) := by
  intro cursor trail
  obtain ⟨ends, reached⟩ := seek_agrees simulates cursor
  simp only [Matcher.skipTo, Reader.skipTo, reached]
  cases found : Reader.seek reader cursor.rest with
  | none => exact ⟨List.suffix_refl _, [], by simp⟩
  | some place =>
      have ending := ends place found
      have solid := Text.trimStart_suffix place
      refine ⟨solid.trans ending, ?_⟩
      simp [Cursor.skipBlanks_eq_goto, Cursor.goto_goto ending solid]

theorem simulates_ahead {matcher : Matcher} {reader : Reader}
    (simulates : Simulates matcher reader) :
    Simulates (Matcher.ahead matcher) (Reader.ahead reader) := by
  intro cursor trail
  simp only [Matcher.ahead, Reader.ahead]
  cases read : reader cursor.rest with
  | ok found =>
      obtain ⟨_, run⟩ := simulates.ok read []
      exact ⟨List.suffix_refl _, by simp [run]⟩
  | error stuck =>
      obtain ⟨ending, left, run⟩ := simulates.error read []
      exact ⟨ending, [], by simp [run]⟩

theorem simulates_notAhead {matcher : Matcher} {reader : Reader} (label : String)
    (simulates : Simulates matcher reader) :
    Simulates (Matcher.notAhead label matcher) (Reader.notAhead label reader) := by
  intro cursor trail
  simp only [Matcher.notAhead, Reader.notAhead]
  cases read : reader cursor.rest with
  | ok found =>
      obtain ⟨_, run⟩ := simulates.ok read []
      exact ⟨Text.trimStart_suffix _, [], by simp [run, Cursor.skipBlanks_eq_goto]⟩
  | error stuck =>
      obtain ⟨_, left, run⟩ := simulates.error read []
      exact ⟨List.suffix_refl _, by simp [run]⟩

/-! ## Captures -/

theorem simulates_silent {matcher : Matcher} {reader : Reader}
    (simulates : Simulates matcher reader) :
    Simulates (Matcher.silent matcher) (Reader.silent reader) := by
  intro cursor trail
  simp only [Matcher.silent, Reader.silent]
  cases read : reader cursor.rest with
  | ok found =>
      obtain ⟨ending, run⟩ := simulates.ok read []
      exact ⟨ending, by simp [run]⟩
  | error stuck =>
      obtain ⟨ending, left, run⟩ := simulates.error read []
      exact ⟨ending, [], by simp [run]⟩

theorem simulates_named {matcher : Matcher} {reader : Reader} (name : String)
    (simulates : Simulates matcher reader) :
    Simulates (Matcher.named name matcher) (Reader.named name reader) := by
  intro cursor trail
  have solid := Text.trimStart_suffix cursor.rest
  simp only [Matcher.named, Reader.named, Cursor.skipBlanks_eq_goto]
  cases read : reader cursor.rest with
  | ok found =>
      obtain ⟨ending, run⟩ := simulates.ok read trail
      exact ⟨ending, by simp [run, Cursor.textTo, Reader.between]⟩
  | error stuck =>
      obtain ⟨ending, left, run⟩ := simulates.error read trail
      have order := Cursor.offset_goto_le_iff ending solid
      rw [run]
      by_cases early : (Text.trimStart cursor.rest).length ≤ stuck.rest.length
      · simp only [early, if_true]
        refine ⟨ending, left, ?_⟩
        simp [Cursor.mismatch, order.2 early]
      · have late : ¬ (cursor.goto stuck.rest).offset ≤
            (cursor.goto (Text.trimStart cursor.rest)).offset :=
          fun before => early (order.1 before)
        simp only [early, if_false]
        refine ⟨ending, left, ?_⟩
        simp [Cursor.mismatch, late]

/-! ## All patterns -/

mutual

/-- The matcher of every pattern simulates its reader. -/
theorem simulates_reader : ∀ pattern : Pattern, Simulates pattern.matcher pattern.reader
  | .keyword _ => simulates_keyword _ _
  | .literal _ => simulates_literal _ _
  | .word _ _ => simulates_word _ _ _
  | .seq parts => simulates_sequence (simulates_readers parts)
  | .longest alternatives => simulates_longest _ (simulates_readers alternatives)
  | .first alternatives => simulates_first _ (simulates_readers alternatives)
  | .optional inner => simulates_optional (simulates_reader inner)
  | .zeroOrMore inner => simulates_zeroOrMore (simulates_reader inner)
  | .anyOrder group => simulates_anyOrder (simulates_members group)
  | .skipTo target => simulates_skipTo _ (simulates_reader target)
  | .ahead inner => simulates_ahead (simulates_reader inner)
  | .notAhead inner => simulates_notAhead _ (simulates_reader inner)
  | .windowEnd => simulates_windowEnd _
  | .silent inner => simulates_silent (simulates_reader inner)
  | .named name inner => simulates_named name (simulates_reader inner)

theorem simulates_readers :
    ∀ patterns : List Pattern, List.Forall₂ Simulates (matchers patterns) (readers patterns)
  | [] => .nil
  | pattern :: others => .cons (simulates_reader pattern) (simulates_readers others)

theorem simulates_members :
    ∀ group : List Pattern, List.Forall₂ MemberSimulates (members group) (memberReaders group)
  | [] => .nil
  | pattern :: others => by
      have head := simulates_reader pattern
      have rest := simulates_members others
      cases pattern with
      | optional inner => exact .cons ⟨rfl, rfl, simulates_reader inner⟩ rest
      | _ => exact .cons ⟨rfl, rfl, head⟩ rest

end

end GodotGraph.Pattern
