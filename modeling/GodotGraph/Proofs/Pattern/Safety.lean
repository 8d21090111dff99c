import GodotGraph.Proofs.Pattern.Agreement
import GodotGraph.Proofs.Pattern.Offsets
import Mathlib.Data.String.Basic

/-!
Contract: matching on byte offsets has no faults and comes to an end.

Owns:
- slices as the boundaries of the characters of a text;
- cursors that stand in a text, where a slice gives what the cursor carries;
- the run of every pattern as its matcher, with one lemma for each way of composing.

A matcher moves to what is left of the text at its cursor, never to anything else. That
keeps every slice at a boundary, and it bounds the loops: a round or a step of a search
leaves less text, a pick fewer members.
-/

set_option autoImplicit false

namespace GodotGraph.Pattern

/-! ## Slices -/

theorem sliceFrom?_append (before rest : List Char) :
    sliceFrom? (before ++ rest) (byteLength before) = some rest := by
  induction before with
  | nil => cases rest <;> rfl
  | cons c others inductionHypothesis =>
      have size := c.utf8Size_pos
      have offset : byteLength (c :: others) = (c.utf8Size + byteLength others - 1) + 1 := by
        show c.utf8Size + byteLength others = _
        omega
      rw [offset, List.cons_append, sliceFrom?, if_pos (by omega)]
      rw [show c.utf8Size + byteLength others - 1 + 1 - c.utf8Size = byteLength others by omega]
      exact inductionHypothesis

/-- A slice exists where the text can be cut between two characters. -/
theorem sliceFrom?_eq_some_iff {text rest : List Char} {offset : Nat} :
    sliceFrom? text offset = some rest ↔
      ∃ before, text = before ++ rest ∧ offset = byteLength before := by
  constructor
  · intro slice
    induction text generalizing offset with
    | nil =>
        cases offset with
        | zero => exact ⟨[], by simpa [sliceFrom?] using slice, rfl⟩
        | succ offset => simp [sliceFrom?] at slice
    | cons c others inductionHypothesis =>
        cases offset with
        | zero => exact ⟨[], by simpa [sliceFrom?] using slice, rfl⟩
        | succ offset =>
            rw [sliceFrom?] at slice
            split at slice
            · next inside =>
                obtain ⟨before, rfl, after⟩ := inductionHypothesis slice
                refine ⟨c :: before, rfl, ?_⟩
                show offset + 1 = c.utf8Size + byteLength before
                omega
            · simp at slice
  · rintro ⟨before, rfl, rfl⟩
    exact sliceFrom?_append before rest

theorem slice?_append (front middle rest : List Char) :
    slice? (front ++ (middle ++ rest)) (byteLength front)
      (byteLength front + byteLength middle) = some middle := by
  have last : sliceFrom? (front ++ (middle ++ rest)) (byteLength front + byteLength middle) =
      some rest := by
    rw [← byteLength_append, ← List.append_assoc]
    exact sliceFrom?_append _ _
  rw [slice?, if_pos (Nat.le_add_right _ _), sliceFrom?_append, last]
  simp [Reader.between]

/-- The slices of a text start at the boundaries that its encoding has. -/
theorem isValid_iff_sliceFrom? {text : String} {offset : Nat} :
    String.Pos.Raw.IsValid text ⟨offset⟩ ↔ ∃ rest, sliceFrom? text.toList offset = some rest := by
  rw [String.Pos.Raw.isValid_iff_exists_append]
  constructor
  · rintro ⟨before, rest, rfl, position⟩
    refine ⟨rest.toList, sliceFrom?_eq_some_iff.2 ⟨before.toList, String.toList_append, ?_⟩⟩
    rw [byteLength_toList]
    exact congrArg String.Pos.Raw.byteIdx position
  · rintro ⟨rest, slice⟩
    obtain ⟨before, shape, rfl⟩ := sliceFrom?_eq_some_iff.1 slice
    refine ⟨String.ofList before, String.ofList rest, ?_, ?_⟩
    · rw [← String.ofList_append, ← shape, String.ofList_toList]
    · have size := byteLength_toList (String.ofList before)
      rw [String.toList_ofList] at size
      rw [size]
      rfl

/-! ## Cursors in a text -/

/-- The cursor carries what the text has from its offset on. -/
def Stands (text : List Char) (cursor : Cursor) : Prop :=
  sliceFrom? text cursor.offset = some cursor.rest

namespace Stands

variable {text : List Char} {cursor : Cursor}

theorem goto (stands : Stands text cursor) {rest : List Char} (ends : rest <:+ cursor.rest) :
    Stands text (cursor.goto rest) := by
  obtain ⟨before, shape, offset⟩ := sliceFrom?_eq_some_iff.1 stands
  obtain ⟨read, split⟩ := ends
  refine sliceFrom?_eq_some_iff.2 ⟨before ++ read, ?_, ?_⟩
  · rw [shape, ← split, Cursor.goto_rest, List.append_assoc]
  · simp only [Cursor.goto, offset, ← split, byteLength_append]
    omega

theorem skipBlanks (stands : Stands text cursor) : Stands text cursor.skipBlanks := by
  rw [Cursor.skipBlanks_eq_goto]
  exact stands.goto (Text.trimStart_suffix _)

theorem skipBlanks_run (stands : Stands text cursor) :
    Run.skipBlanks text cursor.offset = some cursor.skipBlanks.offset := by
  rw [Run.skipBlanks, show sliceFrom? text cursor.offset = some cursor.rest from stands]
  have taken : cursor.rest.take (cursor.rest.takeWhile Text.isBlank).length =
      cursor.rest.takeWhile Text.isBlank :=
    List.prefix_iff_eq_take.1 (List.takeWhile_prefix _) |>.symm
  simp [Cursor.skipBlanks, Cursor.advance, taken]

/-- Offsets are never past the end of the text. -/
theorem offset_le (stands : Stands text cursor) : cursor.offset ≤ byteLength text := by
  obtain ⟨before, shape, offset⟩ := sliceFrom?_eq_some_iff.1 stands
  rw [shape, byteLength_append, offset]
  exact Nat.le_add_right _ _

/-- At the end of the text nothing is left, and only there. -/
theorem offset_eq_iff (stands : Stands text cursor) :
    cursor.offset = byteLength text ↔ cursor.rest.isEmpty = true := by
  obtain ⟨before, shape, offset⟩ := sliceFrom?_eq_some_iff.1 stands
  rw [shape, byteLength_append, offset]
  cases cursor.rest with
  | nil => simp [byteLength]
  | cons c rest =>
      have size := c.utf8Size_pos
      have left : byteLength (c :: rest) = c.utf8Size + byteLength rest := rfl
      simp only [left, List.isEmpty_cons, Bool.false_eq_true, iff_false]
      omega

/-- Of two cursors in a text the one that stands further on has less text left. -/
theorem length_le_of_offset_lt (stands : Stands text cursor) {other : Cursor}
    (otherStands : Stands text other) (before : other.offset < cursor.offset) :
    cursor.rest.length ≤ other.rest.length := by
  obtain ⟨read, shape, offset⟩ := sliceFrom?_eq_some_iff.1 stands
  obtain ⟨otherRead, otherShape, otherOffset⟩ := sliceFrom?_eq_some_iff.1 otherStands
  have whole : byteLength read + byteLength cursor.rest =
      byteLength otherRead + byteLength other.rest := by
    rw [← byteLength_append, ← byteLength_append, ← shape, ← otherShape]
  have less : byteLength cursor.rest < byteLength other.rest := by omega
  exact Nat.le_of_lt ((byteLength_lt_iff ⟨read, shape.symm⟩ ⟨otherRead, otherShape.symm⟩).1 less)

end Stands

/-! ## Runs and matchers -/

/-- What a run on offsets gives for a matcher: where its cursor stands, and its trail. -/
def landing (result : Outcome × Trail) : Landing :=
  some (result.1.map Cursor.offset, result.2)

@[simp] theorem landing_ok (next : Cursor) (trail : Trail) :
    landing (.ok next, trail) = some (.ok next.offset, trail) :=
  rfl

@[simp] theorem landing_error (mismatch : Mismatch) (trail : Trail) :
    landing (.error mismatch, trail) = some (.error mismatch, trail) :=
  rfl

/-- A result of a matcher lies further on in the text that its cursor carries. -/
def Reaches (cursor : Cursor) : Outcome → Prop
  | .ok next => ∃ rest, rest <:+ cursor.rest ∧ next = cursor.goto rest
  | .error mismatch => ∃ rest, rest <:+ cursor.rest ∧ mismatch.position = (cursor.goto rest).offset

theorem Simulates.reaches {matcher : Matcher} {reader : Reader}
    (simulates : Simulates matcher reader) (cursor : Cursor) (trail : Trail) :
    Reaches cursor (matcher cursor trail).1 := by
  have agrees := simulates cursor trail
  cases read : reader cursor.rest with
  | ok found =>
      rw [read] at agrees
      obtain ⟨ends, run⟩ := agrees
      rw [run]
      exact ⟨found.rest, ends, rfl⟩
  | error stuck =>
      rw [read] at agrees
      obtain ⟨ends, left, run⟩ := agrees
      rw [run]
      exact ⟨stuck.rest, ends, rfl⟩

/-- The run gives what the matcher gives, from every cursor that stands in the text. -/
def Gives (text : List Char) (run : Run) (matcher : Matcher) : Prop :=
  ∀ cursor, Stands text cursor → ∀ trail, run cursor.offset trail = landing (matcher cursor trail)

/-- The matcher stays in the text, and the run gives what it gives. -/
structure Follows (text : List Char) (run : Run) (matcher : Matcher) : Prop where
  reaches : ∀ cursor trail, Reaches cursor (matcher cursor trail).1
  gives : Gives text run matcher

variable {text : List Char} {run : Run} {matcher : Matcher}

/-- A run that goes on after a match goes on at a boundary, and further on in the text if and
only if the match has left less of it. -/
theorem Follows.cases (follows : Follows text run matcher) {cursor : Cursor}
    (stands : Stands text cursor) (trail : Trail) :
    (∃ next longer, matcher cursor trail = (.ok next, longer) ∧
        run cursor.offset trail = some (.ok next.offset, longer) ∧ Stands text next ∧
          (cursor.offset < next.offset ↔ next.rest.length < cursor.rest.length)) ∨
      ∃ mismatch longer, matcher cursor trail = (.error mismatch, longer) ∧
        run cursor.offset trail = some (.error mismatch, longer) := by
  have reaches := follows.reaches cursor trail
  have gives := follows.gives cursor stands trail
  cases result : matcher cursor trail with
  | mk outcome longer =>
      rw [result] at reaches gives
      cases outcome with
      | error mismatch => exact Or.inr ⟨mismatch, longer, rfl, gives⟩
      | ok next =>
          obtain ⟨rest, ends, rfl⟩ := reaches
          have order := Cursor.offset_goto_lt_iff (List.suffix_refl cursor.rest) ends
          rw [Cursor.goto_self] at order
          exact Or.inl ⟨_, longer, rfl, gives, stands.goto ends, order⟩

/-! ## Single words -/

/-- A text that comes next takes the cursor to the offset after its bytes. -/
theorem strip?_eq_some_offset {cursor : Cursor} (stands : Stands text cursor)
    {expected : List Char} (starts : expected.isPrefixOf cursor.rest = true) :
    ∃ next, cursor.strip? expected = some next ∧ Stands text next ∧
      cursor.offset + byteLength expected = next.offset := by
  have ends := List.drop_suffix expected.length cursor.rest
  refine ⟨_, Cursor.strip?_eq_some starts, stands.goto ends, ?_⟩
  obtain ⟨rest, shape⟩ := List.isPrefixOf_iff_prefix.1 starts
  simp only [Cursor.goto, ← shape, List.drop_left, byteLength_append]
  omega

theorem gives_keyword (label : String) (expected : List Char) :
    Gives text (Run.keyword text label expected) (Matcher.keyword label expected) := by
  intro cursor stands trail
  have solid := stands.skipBlanks
  have slice : sliceFrom? text cursor.skipBlanks.offset = some cursor.skipBlanks.rest := solid
  simp only [Run.keyword, Matcher.keyword, stands.skipBlanks_run, slice, Option.bind_eq_bind,
    Option.bind_some]
  cases starts : expected.isPrefixOf cursor.skipBlanks.rest with
  | false => simp [Cursor.strip?_eq_none starts]
  | true =>
      obtain ⟨next, stripped, there, offset⟩ := strip?_eq_some_offset solid starts
      have after : sliceFrom? text next.offset = some next.rest := there
      simp only [stripped, offset, after, atBoundary_eq, if_true, Option.bind_some]
      cases endsWord next.rest <;> rfl

theorem gives_literal (label : String) (expected : List Char) :
    Gives text (Run.literal text label expected) (Matcher.literal label expected) := by
  intro cursor stands trail
  have solid := stands.skipBlanks
  have slice : sliceFrom? text cursor.skipBlanks.offset = some cursor.skipBlanks.rest := solid
  simp only [Run.literal, Matcher.literal, stands.skipBlanks_run, slice, Option.bind_eq_bind,
    Option.bind_some]
  cases starts : expected.isPrefixOf cursor.skipBlanks.rest with
  | false => simp [Cursor.strip?_eq_none starts]
  | true =>
      obtain ⟨next, stripped, _, offset⟩ := strip?_eq_some_offset solid starts
      simp only [stripped, offset, if_true]
      rfl

theorem gives_word (label : String) (opens continues : Char → Bool) :
    Gives text (Run.word text label opens continues) (Matcher.word label opens continues) := by
  intro cursor stands trail
  have slice : sliceFrom? text cursor.skipBlanks.offset = some cursor.skipBlanks.rest :=
    stands.skipBlanks
  simp only [Run.word, Matcher.word, stands.skipBlanks_run, slice, Option.bind_eq_bind,
    Option.bind_some]
  cases shape : cursor.skipBlanks.rest with
  | nil => rfl
  | cons c rest =>
      dsimp only
      cases opens c with
      | false => rfl
      | true =>
          have taken : rest.take (rest.takeWhile continues).length = rest.takeWhile continues :=
            (List.prefix_iff_eq_take.1 (List.takeWhile_prefix _)).symm
          have bytes : byteLength ((c :: rest).take (1 + (rest.takeWhile continues).length)) =
              c.utf8Size + byteLength (rest.takeWhile continues) := by
            rw [Nat.add_comm, List.take_succ_cons, taken]
            rfl
          simp only [if_true, landing_ok, Cursor.advance, shape, bytes, Nat.add_assoc]
          rfl

theorem gives_windowEnd (label : String) :
    Gives text (Run.windowEnd text label) (Matcher.windowEnd label) := by
  intro cursor stands trail
  have atEnd := stands.skipBlanks.offset_eq_iff
  simp only [Run.windowEnd, Matcher.windowEnd, stands.skipBlanks_run, Option.bind_eq_bind,
    Option.bind_some, atEnd]
  split <;> rfl

/-! ## Sequences and choices -/

theorem gives_sequence {runs : List Run} {matchers : List Matcher}
    (each : List.Forall₂ (Follows text) runs matchers) :
    Gives text (Run.sequence runs) (Matcher.sequence matchers) := by
  induction each with
  | nil => intro cursor stands trail; rfl
  | @cons run matcher runs matchers follows _ inductionHypothesis =>
      intro cursor stands trail
      rcases follows.cases stands trail with
        ⟨next, longer, matched, ran, there, _⟩ | ⟨mismatch, longer, matched, ran⟩
      · simp only [Run.sequence, Matcher.sequence, matched, ran, Option.bind_eq_bind,
          Option.bind_some]
        exact inductionHypothesis next there longer
      · simp only [Run.sequence, Matcher.sequence, matched, ran, Option.bind_eq_bind,
          Option.bind_some]
        rfl

theorem longestOf_gives {runs : List Run} {matchers : List Matcher} (label : String)
    (each : List.Forall₂ (Follows text) runs matchers) {cursor : Cursor}
    (stands : Stands text cursor) (trail : Trail) (best : Option (Cursor × Trail))
    (failure : Option Mismatch) :
    Run.longestOf label cursor.offset trail runs
        (best.map fun reached => (reached.1.offset, reached.2)) failure =
      landing (Matcher.longestOf label cursor trail matchers best failure) := by
  induction each generalizing best failure with
  | nil =>
      cases best with
      | some reached => rfl
      | none => cases failure <;> rfl
  | @cons run matcher runs matchers follows _ inductionHypothesis =>
      rcases follows.cases stands trail with
        ⟨next, longer, matched, ran, _, _⟩ | ⟨mismatch, longer, matched, ran⟩
      · simp only [Run.longestOf, Matcher.longestOf, matched, ran, Option.bind_eq_bind,
          Option.bind_some]
        rw [← inductionHypothesis]
        cases best with
        | none => rfl
        | some reached =>
            simp only [Option.map_some]
            split <;> rfl
      · simp only [Run.longestOf, Matcher.longestOf, matched, ran, Option.bind_eq_bind,
          Option.bind_some]
        exact inductionHypothesis best _

theorem gives_longest {runs : List Run} {matchers : List Matcher} (label : String)
    (each : List.Forall₂ (Follows text) runs matchers) :
    Gives text (Run.longest label runs) (Matcher.longest label matchers) :=
  fun _ stands trail => longestOf_gives label each stands trail none none

theorem firstOf_gives {runs : List Run} {matchers : List Matcher} (label : String)
    (each : List.Forall₂ (Follows text) runs matchers) {cursor : Cursor}
    (stands : Stands text cursor) (mark : Nat) (failure : Option Mismatch) (trail : Trail) :
    Run.firstOf label cursor.offset mark runs failure trail =
      landing (Matcher.firstOf label cursor mark matchers failure trail) := by
  induction each generalizing failure trail with
  | nil => cases failure <;> rfl
  | @cons run matcher runs matchers follows _ inductionHypothesis =>
      rcases follows.cases stands trail with
        ⟨next, longer, matched, ran, _, _⟩ | ⟨mismatch, longer, matched, ran⟩
      · simp only [Run.firstOf, Matcher.firstOf, matched, ran, Option.bind_eq_bind,
          Option.bind_some]
        rfl
      · simp only [Run.firstOf, Matcher.firstOf, matched, ran, Option.bind_eq_bind,
          Option.bind_some]
        exact inductionHypothesis _ _

theorem gives_first {runs : List Run} {matchers : List Matcher} (label : String)
    (each : List.Forall₂ (Follows text) runs matchers) :
    Gives text (Run.first label runs) (Matcher.first label matchers) :=
  fun _ stands trail => firstOf_gives label each stands trail.length none trail

/-! ## Options and repetitions -/

theorem gives_optional (follows : Follows text run matcher) :
    Gives text (Run.optional run) (Matcher.optional matcher) := by
  intro cursor stands trail
  rcases follows.cases stands trail with
    ⟨next, longer, matched, ran, _, _⟩ | ⟨mismatch, longer, matched, ran⟩ <;>
  · simp only [Run.optional, Matcher.optional, matched, ran, Option.bind_eq_bind, Option.bind_some]
    rfl

/-- A round that goes on has left less text, so the bound on the rounds is never reached. -/
theorem rounds_gives (follows : Follows text run matcher) (count : Nat) {cursor : Cursor}
    (stands : Stands text cursor) (enough : cursor.rest.length < count) (trail : Trail) :
    Run.loop (Run.again run) (cursor.offset, trail) =
      landing (Matcher.rounds matcher count cursor trail) := by
  induction count generalizing cursor trail with
  | zero => omega
  | succ count inductionHypothesis =>
      rw [Matcher.rounds]
      rcases follows.cases stands trail with
        ⟨next, longer, matched, ran, there, order⟩ | ⟨mismatch, longer, matched, ran⟩
      · simp only [matched]
        split
        · next moves =>
            have goesOn : Run.again run (cursor.offset, trail) =
                some (.inr (next.offset, longer)) := by
              simp [Run.again, ran, moves]
            rw [Run.loop_of_state goesOn]
            exact inductionHypothesis there (by omega) longer
        · next stays =>
            rw [landing_ok]
            exact Run.loop_of_result (by simp [Run.again, ran, stays])
      · simp only [matched, landing_ok]
        exact Run.loop_of_result (by simp [Run.again, ran])

theorem gives_zeroOrMore (follows : Follows text run matcher) :
    Gives text (Run.zeroOrMore run) (Matcher.zeroOrMore matcher) :=
  fun _ stands trail => rounds_gives follows _ stands (Nat.lt_succ_self _) trail

/-! ## Groups in any order -/

/-- The members of two groups are alike, and the runs follow the matchers. -/
structure MemberFollows (text : List Char) (ran : Run.Member) (matched : Matcher.Member) :
    Prop where
  required : ran.required = matched.required
  label : ran.label = matched.label
  follows : Follows text ran.run matched.matcher

theorem pick_gives {ran : List Run.Member} {matched : List Matcher.Member}
    (each : List.Forall₂ (MemberFollows text) ran matched) {cursor : Cursor}
    (stands : Stands text cursor) (mark : Nat) (trail : Trail) :
    (∃ next left ranLeft longer,
        Matcher.pick cursor mark matched trail = (some (next, left), longer) ∧
          Run.pick cursor.offset mark ran trail = some (some (next.offset, ranLeft), longer) ∧
            Stands text next ∧ List.Forall₂ (MemberFollows text) ranLeft left ∧
              left.length < matched.length) ∨
      ∃ final, Matcher.pick cursor mark matched trail = (none, final) ∧
        Run.pick cursor.offset mark ran trail = some (none, final) := by
  induction each generalizing trail with
  | nil => exact Or.inr ⟨trail, rfl, rfl⟩
  | @cons member readMember ran matched alike others inductionHypothesis =>
      simp only [Run.pick, Matcher.pick]
      rcases alike.follows.cases stands trail with
        ⟨next, longer, isMatch, isRun, there, _⟩ | ⟨mismatch, longer, isMatch, isRun⟩
      · simp only [isMatch, isRun, Option.bind_eq_bind, Option.bind_some]
        exact Or.inl ⟨next, matched, ran, longer, rfl, rfl, there, others, by simp⟩
      · simp only [isMatch, isRun, Option.bind_eq_bind, Option.bind_some]
        rcases inductionHypothesis (longer.take mark) with
          ⟨next, left, ranLeft, final, picked, ranPick, there, alikeLeft, fewer⟩ |
            ⟨final, picked, ranPick⟩
        · simp only [picked, ranPick, Option.bind_some]
          exact Or.inl ⟨next, readMember :: left, member :: ranLeft, final, rfl, rfl, there,
            alikeLeft.cons alike, by simpa using fewer⟩
        · simp only [picked, ranPick, Option.bind_some]
          exact Or.inr ⟨final, rfl, rfl⟩

theorem settle_gives {ran : List Run.Member} {matched : List Matcher.Member}
    (each : List.Forall₂ (MemberFollows text) ran matched) {cursor : Cursor}
    (stands : Stands text cursor) (trail : Trail) :
    Run.settle text ran cursor.offset trail = landing (Matcher.settle matched cursor trail) := by
  induction each with
  | nil => rfl
  | @cons member readMember ran matched alike _ inductionHypothesis =>
      simp only [Run.settle, Matcher.settle, List.find?_cons, alike.required] at *
      cases readMember.required with
      | false => exact inductionHypothesis
      | true => simp [stands.skipBlanks_run, alike.label]

/-- Every pick uses up a member, so the bound on the picks is never reached. -/
theorem picks_gives (count : Nat) {ran : List Run.Member} {matched : List Matcher.Member}
    (each : List.Forall₂ (MemberFollows text) ran matched) (enough : matched.length ≤ count)
    {cursor : Cursor} (stands : Stands text cursor) (trail : Trail) :
    Run.loop (Run.pickOrSettle text) (ran, cursor.offset, trail) =
      landing (Matcher.picks count matched cursor trail) := by
  induction count generalizing ran matched cursor trail with
  | zero =>
      obtain rfl : matched = [] := List.length_eq_zero_iff.1 (by omega)
      obtain rfl : ran = [] := List.length_eq_zero_iff.1 (by rw [each.length_eq]; rfl)
      exact Run.loop_of_result rfl
  | succ count inductionHypothesis =>
      rw [Matcher.picks]
      rcases pick_gives each stands trail.length trail with
        ⟨next, left, ranLeft, longer, picked, ranPick, there, alikeLeft, fewer⟩ |
          ⟨final, picked, ranPick⟩
      · have goesOn : Run.pickOrSettle text (ran, cursor.offset, trail) =
            some (.inr (ranLeft, next.offset, longer)) := by
          simp [Run.pickOrSettle, ranPick]
        rw [Run.loop_of_state goesOn]
        simp only [picked]
        exact inductionHypothesis alikeLeft (by omega) there longer
      · simp only [picked]
        refine Run.loop_of_result ?_
        simp [Run.pickOrSettle, ranPick, settle_gives each stands final, landing]

theorem gives_anyOrder {ran : List Run.Member} {matched : List Matcher.Member}
    (each : List.Forall₂ (MemberFollows text) ran matched) :
    Gives text (Run.anyOrder text ran) (Matcher.anyOrder matched) :=
  fun _ stands trail => picks_gives _ each (Nat.le_refl _) stands trail

/-! ## Looking ahead -/

/-- A step of the search leaves less text, so the search ends. -/
theorem seek_gives (follows : Follows text run matcher) {cursor : Cursor}
    (stands : Stands text cursor) :
    Run.seek text run cursor.offset =
        some ((Matcher.seek matcher cursor.offset cursor.rest).map Cursor.offset) ∧
      ∀ found ∈ Matcher.seek matcher cursor.offset cursor.rest, Stands text found := by
  obtain ⟨offset, rest⟩ := cursor
  induction rest generalizing offset with
  | nil =>
      have slice : sliceFrom? text offset = some [] := stands
      rw [Matcher.seek]
      rcases follows.cases stands [] with
        ⟨next, longer, matched, ran, _, _⟩ | ⟨mismatch, longer, matched, ran⟩
      · simp only [matched]
        exact ⟨Run.loop_of_result (by simp [Run.look, ran]), by simpa using stands⟩
      · simp only [matched]
        exact ⟨Run.loop_of_result (by simp [Run.look, ran, slice]), by simp⟩
  | cons c rest inductionHypothesis =>
      have slice : sliceFrom? text offset = some (c :: rest) := stands
      have further : Stands text ⟨offset + c.utf8Size, rest⟩ := by
        obtain ⟨before, shape, position⟩ := sliceFrom?_eq_some_iff.1 slice
        refine sliceFrom?_eq_some_iff.2 ⟨before ++ [c], by simpa using shape, ?_⟩
        rw [byteLength_append, ← position]
        rfl
      rw [Matcher.seek]
      rcases follows.cases stands [] with
        ⟨next, longer, matched, ran, _, _⟩ | ⟨mismatch, longer, matched, ran⟩
      · simp only [matched]
        exact ⟨Run.loop_of_result (by simp [Run.look, ran]), by simpa using stands⟩
      · have goesOn : Run.look text run offset = some (.inr (offset + c.utf8Size)) := by
          simp [Run.look, ran, slice]
        simp only [matched]
        rw [Run.seek, Run.loop_of_state goesOn]
        exact inductionHypothesis _ further

theorem gives_skipTo (label : String) (follows : Follows text run matcher) :
    Gives text (Run.skipTo text label run) (Matcher.skipTo label matcher) := by
  intro cursor stands trail
  obtain ⟨sought, there⟩ := seek_gives follows stands
  simp only [Run.skipTo, Matcher.skipTo, sought, Option.bind_eq_bind, Option.bind_some]
  cases found : Matcher.seek matcher cursor.offset cursor.rest with
  | none => rfl
  | some place =>
      have standsThere := there place found
      simp [standsThere.skipBlanks_run]

theorem gives_ahead (follows : Follows text run matcher) :
    Gives text (Run.ahead run) (Matcher.ahead matcher) := by
  intro cursor stands trail
  rcases follows.cases stands [] with
    ⟨next, longer, matched, ran, _, _⟩ | ⟨mismatch, longer, matched, ran⟩ <;>
  · simp only [Run.ahead, Matcher.ahead, matched, ran, Option.bind_eq_bind, Option.bind_some]
    rfl

theorem gives_notAhead (label : String) (follows : Follows text run matcher) :
    Gives text (Run.notAhead text label run) (Matcher.notAhead label matcher) := by
  intro cursor stands trail
  rcases follows.cases stands [] with
    ⟨next, longer, matched, ran, _, _⟩ | ⟨mismatch, longer, matched, ran⟩ <;>
  · simp only [Run.notAhead, Matcher.notAhead, matched, ran, stands.skipBlanks_run,
      Option.bind_eq_bind, Option.bind_some]
    rfl

/-! ## Captures -/

theorem gives_silent (follows : Follows text run matcher) :
    Gives text (Run.silent run) (Matcher.silent matcher) := by
  intro cursor stands trail
  have gives := follows.gives cursor stands []
  simp only [Run.silent, Matcher.silent, gives]
  rfl

/-- The captured slice starts at the earlier of two boundaries, so it never ends before it
starts. -/
theorem slice?_min {start stop : Cursor} (standsStart : Stands text start)
    (standsStop : Stands text stop) :
    slice? text (min start.offset stop.offset) stop.offset = some (start.textTo stop) := by
  have first : sliceFrom? text start.offset = some start.rest := standsStart
  have last : sliceFrom? text stop.offset = some stop.rest := standsStop
  rw [slice?, if_pos (Nat.min_le_right _ _), last]
  by_cases before : start.offset ≤ stop.offset
  · rw [Nat.min_eq_left before, first]
    rfl
  · have longer := standsStart.length_le_of_offset_lt standsStop (Nat.lt_of_not_le before)
    rw [Nat.min_eq_right (by omega), last]
    simp [Cursor.textTo, Reader.between, longer]

theorem gives_named (name : String) (follows : Follows text run matcher) :
    Gives text (Run.named text name run) (Matcher.named name matcher) := by
  intro cursor stands trail
  simp only [Run.named, Matcher.named, stands.skipBlanks_run, Option.bind_eq_bind,
    Option.bind_some]
  rcases follows.cases stands trail with
    ⟨next, longer, matched, ran, there, _⟩ | ⟨mismatch, longer, matched, ran⟩
  · simp only [matched, ran, slice?_min stands.skipBlanks there, Option.bind_some]
    rfl
  · simp only [matched, ran, Option.bind_some]
    split <;> rfl

/-! ## All patterns -/

mutual

theorem gives_run : ∀ pattern : Pattern, Gives text (pattern.run text) pattern.matcher
  | .keyword _ => gives_keyword _ _
  | .literal _ => gives_literal _ _
  | .word _ _ => gives_word _ _ _
  | .seq parts => gives_sequence (follows_runs parts)
  | .longest alternatives => gives_longest _ (follows_runs alternatives)
  | .first alternatives => gives_first _ (follows_runs alternatives)
  | .optional inner => gives_optional (follows_run inner)
  | .zeroOrMore inner => gives_zeroOrMore (follows_run inner)
  | .anyOrder group => gives_anyOrder (follows_members group)
  | .skipTo target => gives_skipTo _ (follows_run target)
  | .ahead inner => gives_ahead (follows_run inner)
  | .notAhead inner => gives_notAhead _ (follows_run inner)
  | .windowEnd => gives_windowEnd _
  | .silent inner => gives_silent (follows_run inner)
  | .named name inner => gives_named name (follows_run inner)

/-- The run of every pattern follows its matcher. -/
theorem follows_run : ∀ pattern : Pattern, Follows text (pattern.run text) pattern.matcher
  | pattern => ⟨(simulates_reader pattern).reaches, gives_run pattern⟩

theorem follows_runs :
    ∀ patterns : List Pattern, List.Forall₂ (Follows text) (runs text patterns) (matchers patterns)
  | [] => .nil
  | pattern :: others => .cons (follows_run pattern) (follows_runs others)

theorem follows_members :
    ∀ group : List Pattern,
      List.Forall₂ (MemberFollows text) (memberRuns text group) (members group)
  | [] => .nil
  | pattern :: others => by
      have head : Follows text (pattern.run text) pattern.matcher := follows_run pattern
      have rest := follows_members others
      cases pattern with
      | optional inner => exact .cons ⟨rfl, rfl, follows_run inner⟩ rest
      | _ => exact .cons ⟨rfl, rfl, head⟩ rest

end

/-- The place where a match ends, or where a mismatch is found. -/
def placeOf : Outcome → Nat
  | .ok next => next.offset
  | .error mismatch => mismatch.position

/-- The place lies in the text, not before the start and not inside a character. -/
structure LiesIn (text : String) (start place : Nat) : Prop where
  after : start ≤ place
  inside : place ≤ text.utf8ByteSize
  boundary : String.Pos.Raw.IsValid text ⟨place⟩

/-- What a cursor reaches lies in the text that it stands in. -/
theorem liesIn_of_reaches {text : String} {cursor : Cursor} (stands : Stands text.toList cursor)
    {outcome : Outcome} (reaches : Reaches cursor outcome) :
    LiesIn text cursor.offset (placeOf outcome) := by
  have general : ∀ rest, rest <:+ cursor.rest →
      LiesIn text cursor.offset (cursor.goto rest).offset := by
    intro rest ends
    have there := stands.goto ends
    refine ⟨Nat.le_add_right _ _, ?_, isValid_iff_sliceFrom?.2 ⟨_, there⟩⟩
    rw [← byteLength_toList]
    exact there.offset_le
  cases outcome with
  | ok next =>
      obtain ⟨rest, ends, rfl⟩ := reaches
      exact general rest ends
  | error mismatch =>
      obtain ⟨rest, ends, position⟩ := reaches
      show LiesIn text cursor.offset mismatch.position
      rw [position]
      exact general rest ends

/-- From every boundary of a text the run of a pattern has a result: it asks for no slice outside
the text or inside a character, and none of its loops goes on forever. The result is the one of
the matcher, and it lies at a boundary between the start and the end of the text. -/
theorem run_of_boundary (pattern : Pattern) (text : String) {start : Nat}
    (boundary : String.Pos.Raw.IsValid text ⟨start⟩) (trail : Trail) :
    ∃ rest outcome longer, sliceFrom? text.toList start = some rest ∧
      pattern.matcher ⟨start, rest⟩ trail = (outcome, longer) ∧
      pattern.run text.toList start trail = some (outcome.map Cursor.offset, longer) ∧
      LiesIn text start (placeOf outcome) := by
  obtain ⟨rest, slice⟩ := isValid_iff_sliceFrom?.1 boundary
  have stands : Stands text.toList ⟨start, rest⟩ := slice
  have follows : Follows text.toList (pattern.run text.toList) pattern.matcher :=
    follows_run pattern
  exact ⟨rest, _, _, slice, rfl, follows.gives _ stands trail,
    liesIn_of_reaches stands (follows.reaches _ trail)⟩

/-- Names in letters of two bytes, a group, and a colon somewhere after it. -/
def namesAndColon : Pattern :=
  .seq [
    .zeroOrMore (.named "name" (.word (.chars "äöü") (.chars "äöü"))),
    .anyOrder [.optional (.literal "é"), .keyword "class"],
    .skipTo (.literal ":")]

/-- The run behind the first letter, which has two bytes: it ends at the colon, or it blames the
place behind the group when there is no colon. -/
theorem run_of_boundary_namesAndColon :
    (String.Pos.Raw.IsValid "é äö ü class é\u3000: ö" ⟨2⟩ ∧
      namesAndColon.run "é äö ü class é\u3000: ö".toList 2 [] =
        some (.ok 22, [⟨"name", "äö"⟩, ⟨"name", "ü"⟩]) ∧
      LiesIn "é äö ü class é\u3000: ö" 2 22) ∧
    (String.Pos.Raw.IsValid "é äö ü class é\u3000; ö" ⟨2⟩ ∧
      namesAndColon.run "é äö ü class é\u3000; ö".toList 2 [] =
        some (.error ⟨19, "':' somewhere ahead"⟩, [⟨"name", "äö"⟩, ⟨"name", "ü"⟩]) ∧
      LiesIn "é äö ü class é\u3000; ö" 2 19) := by
  have behindFirst : ∀ (text : String) (rest : List Char) (outcome : Outcome) (longer : Trail),
      sliceFrom? text.toList 2 = some rest →
      namesAndColon.matcher ⟨2, rest⟩ [] = (outcome, longer) →
        String.Pos.Raw.IsValid text ⟨2⟩ ∧
          namesAndColon.run text.toList 2 [] = some (outcome.map Cursor.offset, longer) ∧
          LiesIn text 2 (placeOf outcome) := by
    intro text rest outcome longer slice matched
    have boundary := isValid_iff_sliceFrom?.2 ⟨rest, slice⟩
    obtain ⟨left, found, trail, leftSlice, leftMatched, ran, lies⟩ :=
      run_of_boundary namesAndColon text boundary []
    obtain rfl : left = rest := Option.some.inj (leftSlice.symm.trans slice)
    cases leftMatched.symm.trans matched
    exact ⟨boundary, ran, lies⟩
  constructor
  · exact behindFirst _ " äö ü class é\u3000: ö".toList (.ok ⟨22, ": ö".toList⟩) _
      (by decide +kernel) (by decide +kernel)
  · exact behindFirst _ " äö ü class é\u3000; ö".toList (.error ⟨19, "':' somewhere ahead"⟩) _
      (by decide +kernel) (by decide +kernel)

end GodotGraph.Pattern
