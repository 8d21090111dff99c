import GodotGraph.Proofs.Pattern.Consumption

/-!
Contract: patterns that no text after a closing mark can influence.

Owns:
- patterns that never read over a mark, not even where they look ahead;
- the proof that such a pattern has one outcome, whatever comes after the mark;
- such patterns followed by the mark itself.

Does not own: patterns that ask for the end of a window, or that skip ahead to anything but the
mark. These do depend on the text after it.

A place before the mark is the text from there to the mark, so it is the same place for every text
after the mark, and comparing two places gives the same result as well.
-/

set_option autoImplicit false

namespace GodotGraph.Pattern

open Text (trimStart)

/-! ## Words without the mark -/

mutual

/-- No word of the pattern contains the mark, also where the pattern looks ahead. It skips to
nothing but the mark and does not ask for the end of the window. -/
def stopsBefore (mark : Char) : Pattern → Bool
  | keyword text => !text.toList.contains mark
  | literal text => !text.toList.contains mark
  | word opens continues => !opens.contains mark && !continues.contains mark
  | seq parts => allStopBefore mark parts
  | longest alternatives => allStopBefore mark alternatives
  | first alternatives => allStopBefore mark alternatives
  | optional inner => stopsBefore mark inner
  | zeroOrMore inner => stopsBefore mark inner
  | anyOrder group => allStopBefore mark group
  | skipTo (literal text) => decide (text.toList = [mark])
  | skipTo _ => false
  | ahead inner => stopsBefore mark inner
  | notAhead inner => stopsBefore mark inner
  | windowEnd => false
  | silent inner => stopsBefore mark inner
  | named _ inner => stopsBefore mark inner

/-- All of the patterns stop before the mark. -/
def allStopBefore (mark : Char) : List Pattern → Bool
  | [] => true
  | pattern :: others => stopsBefore mark pattern && allStopBefore mark others

end

/-- The same place with more text left. -/
def Stuck.append (stuck : Stuck) (tail : List Char) : Stuck :=
  ⟨stuck.rest ++ tail, stuck.expected⟩

/-- The same reading with more text left. -/
def Reading.append (found : Reading) (tail : List Char) : Reading :=
  ⟨found.rest ++ tail, found.captures⟩

/-- One outcome for every text after the mark. A success ends before the mark. -/
def Settled (mark : Char) (outcome : List Char → Except Stuck Reading) : Prop :=
  (∃ found : Reading, mark ∉ found.rest ∧
    ∀ back, outcome back = .ok (found.append (mark :: back))) ∨
    ∃ stuck : Stuck, ∀ back, outcome back = .error (stuck.append (mark :: back))

/-- The reader has the same outcome before a mark, whatever comes after it. -/
def StopsBefore (mark : Char) (reader : Reader) : Prop :=
  ∀ front, mark ∉ front → Settled mark fun back => reader (front ++ mark :: back)

namespace Settled

variable {mark : Char}

theorem ok {outcome : List Char → Except Stuck Reading} (found : Reading)
    (absent : mark ∉ found.rest)
    (reads : ∀ back, outcome back = .ok (found.append (mark :: back))) : Settled mark outcome :=
  Or.inl ⟨found, absent, reads⟩

theorem error {outcome : List Char → Except Stuck Reading} (stuck : Stuck)
    (fails : ∀ back, outcome back = .error (stuck.append (mark :: back))) : Settled mark outcome :=
  Or.inr ⟨stuck, fails⟩

/-- What comes after a reading decides the outcome. -/
theorem andThen (captures : Trail) {outcome : List Char → Except Stuck Reading} :
    Settled mark outcome → Settled mark fun back =>
      match outcome back with
      | .error stuck => .error stuck
      | .ok last => .ok ⟨last.rest, captures ++ last.captures⟩ := by
  rintro (⟨last, absent, reads⟩ | ⟨stuck, fails⟩)
  · simp only [reads]
    exact ok ⟨last.rest, captures ++ last.captures⟩ absent fun back => rfl
  · simp only [fails]
    exact error stuck fun back => rfl

end Settled

section

variable {mark : Char} {front : List Char}

theorem trimStart_append_mark (solid : Text.isBlank mark = false) (front back : List Char) :
    trimStart (front ++ mark :: back) = trimStart front ++ mark :: back := by
  induction front with
  | nil => exact Text.trimStart_cons_of_solid solid
  | cons c rest inductionHypothesis =>
      by_cases blank : Text.isBlank c = true
      · simpa [trimStart, blank] using inductionHypothesis
      · simp [trimStart, blank]

theorem not_mem_trimStart (absent : mark ∉ front) : mark ∉ trimStart front :=
  fun inside => absent ((Text.trimStart_suffix front).subset inside)

/-- A word without the mark is found before the mark or not at all. -/
theorem isPrefixOf_append_mark {expected : List Char} (free : mark ∉ expected)
    (front back : List Char) :
    expected.isPrefixOf (front ++ mark :: back) = expected.isPrefixOf front := by
  induction expected generalizing front with
  | nil => rfl
  | cons c others inductionHypothesis =>
      obtain ⟨other, freeOthers⟩ : ¬ mark = c ∧ mark ∉ others := by simpa using free
      cases front with
      | nil => simp [List.isPrefixOf, Ne.symm other]
      | cons d rest => simp [List.isPrefixOf, inductionHypothesis freeOthers]

/-- Whether a word ends before a place is decided up to the mark. -/
theorem endsWord_append_mark (front back : List Char) :
    endsWord (front ++ mark :: back) = endsWord (front ++ [mark]) := by
  cases front <;> rfl

/-! ## Single words -/

theorem stopsBefore_keyword (solid : Text.isBlank mark = false) (label : String)
    {expected : List Char} (free : mark ∉ expected) :
    StopsBefore mark (Reader.keyword label expected) := by
  intro front absent
  have absentSolid := not_mem_trimStart absent
  simp only [Reader.keyword, trimStart_append_mark solid, isPrefixOf_append_mark free]
  cases starts : expected.isPrefixOf (trimStart front) with
  | false => exact .error ⟨trimStart front, label⟩ fun back => rfl
  | true =>
      obtain ⟨rest, shape⟩ := List.isPrefixOf_iff_prefix.1 starts
      rw [← shape] at absentSolid ⊢
      simp only [List.append_assoc, List.drop_left, endsWord_append_mark]
      cases endsWord (rest ++ [mark]) with
      | false => exact .error ⟨expected ++ rest, label⟩ fun back => by simp [Stuck.append]
      | true =>
          exact .ok ⟨rest, []⟩ (fun inside => absentSolid (List.mem_append_right _ inside))
            fun back => rfl

theorem stopsBefore_literal (solid : Text.isBlank mark = false) (label : String)
    {expected : List Char} (free : mark ∉ expected) :
    StopsBefore mark (Reader.literal label expected) := by
  intro front absent
  have absentSolid := not_mem_trimStart absent
  simp only [Reader.literal, trimStart_append_mark solid, isPrefixOf_append_mark free]
  cases starts : expected.isPrefixOf (trimStart front) with
  | false => exact .error ⟨trimStart front, label⟩ fun back => rfl
  | true =>
      obtain ⟨rest, shape⟩ := List.isPrefixOf_iff_prefix.1 starts
      rw [← shape] at absentSolid ⊢
      simp only [List.append_assoc, List.drop_left]
      exact .ok ⟨rest, []⟩ (fun inside => absentSolid (List.mem_append_right _ inside))
        fun back => rfl

theorem stopsBefore_word (solid : Text.isBlank mark = false) (label : String)
    {opens continues : Char → Bool} (notOpened : opens mark = false)
    (notContinued : continues mark = false) :
    StopsBefore mark (Reader.word label opens continues) := by
  intro front absent
  have absentSolid := not_mem_trimStart absent
  simp only [Reader.word, trimStart_append_mark solid]
  cases shape : trimStart front with
  | nil =>
      simp only [List.nil_append, notOpened]
      exact .error ⟨[], label⟩ fun back => rfl
  | cons c rest =>
      rw [shape] at absentSolid
      dsimp only [List.cons_append]
      cases opens c with
      | false => exact .error ⟨c :: rest, label⟩ fun back => rfl
      | true =>
          have stops : ∀ back, (rest ++ mark :: back).dropWhile continues =
              rest.dropWhile continues ++ mark :: back := by
            intro back
            rw [List.dropWhile_append, List.dropWhile_cons_of_neg (by simp [notContinued])]
            split
            · next empty => rw [List.isEmpty_iff.1 empty, List.nil_append]
            · rfl
          have absentRest : mark ∉ rest.dropWhile continues := fun inside =>
            absentSolid (List.mem_cons_of_mem c ((List.dropWhile_suffix _).subset inside))
          simp only [if_true, stops]
          exact .ok ⟨rest.dropWhile continues, []⟩ absentRest fun back => rfl

/-! ## Sequences and choices -/

theorem stopsBefore_sequence {readers : List Reader}
    (each : ∀ reader ∈ readers, StopsBefore mark reader) :
    StopsBefore mark (Reader.sequence readers) := by
  induction readers with
  | nil => exact fun front absent => .ok ⟨front, []⟩ absent fun back => rfl
  | cons reader others inductionHypothesis =>
      intro front absent
      simp only [Reader.sequence]
      rcases each reader List.mem_cons_self front absent with
        ⟨found, absentFound, reads⟩ | ⟨stuck, fails⟩
      · simp only [reads]
        have later := inductionHypothesis
          (fun other member => each other (List.mem_cons_of_mem _ member)) found.rest absentFound
        exact later.andThen found.captures
      · simp only [fails]
        exact .error stuck fun back => rfl

theorem furthest_append (failure : Option Stuck) (candidate : Stuck) (tail : List Char) :
    Stuck.furthest (failure.map fun stuck => stuck.append tail) (candidate.append tail) =
      (Stuck.furthest failure candidate).map fun stuck => stuck.append tail := by
  cases failure with
  | none => rfl
  | some stuck =>
      simp only [Option.map_some, Stuck.furthest, Stuck.append, List.length_append,
        Nat.add_le_add_iff_right]
      split <;> rfl

theorem settled_firstOf (label : String) (absent : mark ∉ front) {readers : List Reader}
    (each : ∀ reader ∈ readers, StopsBefore mark reader) (failure : Option Stuck) :
    Settled mark fun back =>
      Reader.firstOf label (front ++ mark :: back) readers
        (failure.map fun stuck => stuck.append (mark :: back)) := by
  induction readers generalizing failure with
  | nil =>
      cases failure with
      | none => exact .error ⟨front, label⟩ fun back => rfl
      | some stuck => exact .error stuck fun back => rfl
  | cons reader others inductionHypothesis =>
      simp only [Reader.firstOf]
      rcases each reader List.mem_cons_self front absent with
        ⟨found, absentFound, reads⟩ | ⟨stuck, fails⟩
      · simp only [reads]
        exact .ok found absentFound fun back => rfl
      · simp only [fails, furthest_append]
        exact inductionHypothesis (fun other member => each other (List.mem_cons_of_mem _ member)) _

theorem stopsBefore_first (label : String) {readers : List Reader}
    (each : ∀ reader ∈ readers, StopsBefore mark reader) :
    StopsBefore mark (Reader.first label readers) :=
  fun _ absent => settled_firstOf label absent each none

/-- The best reading so far ends before the mark. Which of two readings is better does not depend
on the text after the mark. -/
theorem settled_longestOf (label : String) (absent : mark ∉ front) {readers : List Reader}
    (each : ∀ reader ∈ readers, StopsBefore mark reader) {best : Option Reading}
    (absentBest : ∀ reached ∈ best, mark ∉ reached.rest) (failure : Option Stuck) :
    Settled mark fun back =>
      Reader.longestOf label (front ++ mark :: back) readers
        (best.map fun reached => reached.append (mark :: back))
        (failure.map fun stuck => stuck.append (mark :: back)) := by
  induction readers generalizing best failure with
  | nil =>
      cases best with
      | some reached => exact .ok reached (absentBest reached rfl) fun back => rfl
      | none =>
          cases failure with
          | none => exact .error ⟨front, label⟩ fun back => rfl
          | some stuck => exact .error stuck fun back => rfl
  | cons reader others inductionHypothesis =>
      have later :=
        @inductionHypothesis fun other member => each other (List.mem_cons_of_mem _ member)
      simp only [Reader.longestOf]
      rcases each reader List.mem_cons_self front absent with
        ⟨found, absentFound, reads⟩ | ⟨stuck, fails⟩
      · have absentNext : ∀ reached ∈ some found, mark ∉ reached.rest := by
          simpa using absentFound
        simp only [reads]
        cases best with
        | none => exact later absentNext failure
        | some reached =>
            simp only [Option.map_some, Reading.append, List.length_append,
              Nat.add_lt_add_iff_right, decide_eq_true_eq]
            by_cases further : found.rest.length < reached.rest.length
            · simp only [if_pos further]
              exact later absentNext failure
            · simp only [if_neg further]
              exact later absentBest failure
      · simp only [fails, furthest_append]
        exact later absentBest _

theorem stopsBefore_longest (label : String) {readers : List Reader}
    (each : ∀ reader ∈ readers, StopsBefore mark reader) :
    StopsBefore mark (Reader.longest label readers) := by
  intro front absent
  have noBest : ∀ reached ∈ (none : Option Reading), mark ∉ reached.rest := by simp
  exact settled_longestOf label absent each noBest none

/-! ## Repetitions -/

section

variable {reader : Reader}

theorem stopsBefore_optional (stops : StopsBefore mark reader) :
    StopsBefore mark (Reader.optional reader) := by
  intro front absent
  simp only [Reader.optional]
  rcases stops front absent with ⟨found, absentFound, reads⟩ | ⟨stuck, fails⟩
  · simp only [reads]
    exact .ok found absentFound fun back => rfl
  · simp only [fails]
    exact .ok ⟨front, []⟩ absent fun back => rfl

/-- The rounds end before the mark. More rounds than there is text before it are enough. -/
theorem rounds_append_mark (stops : StopsBefore mark reader) {front : List Char}
    (absent : mark ∉ front) :
    ∃ found : Reading, mark ∉ found.rest ∧ ∀ back count, front.length < count →
      Reader.rounds reader count (front ++ mark :: back) = found.append (mark :: back) := by
  induction length : front.length using Nat.strongRecOn generalizing front with
  | ind size inductionHypothesis =>
      have enough : ∀ count, size < count → ∃ fewer, count = fewer + 1 :=
        fun count less => Nat.exists_eq_add_one_of_ne_zero (Nat.ne_zero_of_lt less)
      rcases stops front absent with ⟨found, absentFound, reads⟩ | ⟨stuck, fails⟩
      · by_cases moves : found.rest.length < front.length
        · obtain ⟨last, absentLast, later⟩ :=
            inductionHypothesis found.rest.length (length ▸ moves) absentFound rfl
          refine ⟨⟨last.rest, found.captures ++ last.captures⟩, absentLast, fun back count less => ?_⟩
          obtain ⟨fewer, rfl⟩ := enough count less
          have movesOn : (found.append (mark :: back)).rest.length <
              (front ++ mark :: back).length := by
            simpa [Reading.append] using moves
          simp only [Reader.rounds, reads, if_pos movesOn]
          have rounds := later back fewer (by omega)
          simp only [Reading.append] at rounds ⊢
          rw [rounds]
        · refine ⟨⟨front, found.captures⟩, absent, fun back count less => ?_⟩
          obtain ⟨fewer, rfl⟩ := enough count less
          have stays : ¬ (found.append (mark :: back)).rest.length <
              (front ++ mark :: back).length := by
            simpa [Reading.append] using moves
          simp only [Reader.rounds, reads, if_neg stays]
          rfl
      · refine ⟨⟨front, []⟩, absent, fun back count less => ?_⟩
        obtain ⟨fewer, rfl⟩ := enough count less
        simp only [Reader.rounds, fails]
        rfl

theorem stopsBefore_zeroOrMore (stops : StopsBefore mark reader) :
    StopsBefore mark (Reader.zeroOrMore reader) := by
  intro front absent
  obtain ⟨found, absentFound, rounds⟩ := rounds_append_mark stops absent
  refine .ok found absentFound fun back => ?_
  have enough : front.length < (front ++ mark :: back).length + 1 := by
    rw [List.length_append]
    omega
  rw [Reader.zeroOrMore, rounds back _ enough]

end

/-! ## Groups in any order -/

section

variable {group : List Reader.Member}

/-- The same member is picked, whatever comes after the mark, or none. -/
theorem pick_append_mark (each : ∀ member ∈ group, StopsBefore mark member.reader)
    (absent : mark ∉ front) :
    (∃ found fewer, mark ∉ Reading.rest found ∧
      (∀ back, Reader.pick (front ++ mark :: back) group =
        some (found.append (mark :: back), fewer)) ∧
        ∀ member ∈ fewer, StopsBefore mark member.reader) ∨
      ∀ back, Reader.pick (front ++ mark :: back) group = none := by
  induction group with
  | nil => exact Or.inr fun back => rfl
  | cons member others inductionHypothesis =>
      have eachOther : ∀ other ∈ others, StopsBefore mark other.reader :=
        fun other isOther => each other (List.mem_cons_of_mem _ isOther)
      have stops := each member List.mem_cons_self
      simp only [Reader.pick]
      rcases stops front absent with ⟨found, absentFound, reads⟩ | ⟨stuck, fails⟩
      · simp only [reads]
        exact Or.inl ⟨found, others, absentFound, fun back => rfl, eachOther⟩
      · simp only [fails]
        rcases inductionHypothesis eachOther with ⟨found, fewer, absentFound, picks, eachFewer⟩ | none
        · simp only [picks, Option.map_some]
          refine Or.inl ⟨found, member :: fewer, absentFound, fun back => rfl, ?_⟩
          intro next isNext
          rcases List.mem_cons.1 isNext with rfl | isFewer
          · exact stops
          · exact eachFewer next isFewer
        · refine Or.inr fun back => ?_
          rw [none]
          rfl

theorem stopsBefore_settle (solid : Text.isBlank mark = false) (left : List Reader.Member) :
    StopsBefore mark (Reader.picks.settle left) := by
  intro front absent
  unfold Reader.picks.settle
  cases left.find? fun member => member.required with
  | some missing =>
      refine .error ⟨trimStart front, missing.label⟩ fun back => ?_
      simp only [trimStart_append_mark solid]
      rfl
  | none => exact .ok ⟨front, []⟩ absent fun back => rfl

theorem stopsBefore_picks (solid : Text.isBlank mark = false) (count : Nat)
    (each : ∀ member ∈ group, StopsBefore mark member.reader) :
    StopsBefore mark (Reader.picks count group) := by
  induction count generalizing group with
  | zero => exact fun front absent => stopsBefore_settle solid group front absent
  | succ count inductionHypothesis =>
      intro front absent
      simp only [Reader.picks]
      rcases pick_append_mark each absent with ⟨found, fewer, absentFound, picks, eachFewer⟩ | none
      · simp only [picks]
        exact (inductionHypothesis eachFewer found.rest absentFound).andThen found.captures
      · simp only [none]
        exact stopsBefore_settle solid group front absent

end

/-! ## Skipping and looking ahead -/

section

variable {reader : Reader}

/-- Skipping to the mark goes over all other text. -/
theorem stopsBefore_skipTo_mark (solid : Text.isBlank mark = false) (label target : String) :
    StopsBefore mark (Reader.skipTo label (Reader.literal target [mark])) := by
  intro front absent
  -- The search stops in the blanks before the mark, at the latest at the mark.
  have reached : ∀ back, ∃ place,
      Reader.seek (Reader.literal target [mark]) (front ++ mark :: back) = some place ∧
        trimStart place = mark :: back := by
    intro back
    induction front with
    | nil =>
        have whole : trimStart (mark :: back) = mark :: back := Text.trimStart_cons_of_solid solid
        have read : Reader.literal target [mark] (mark :: back) = .ok ⟨back, []⟩ := by
          simp [Reader.literal, whole]
        exact ⟨mark :: back, seek_of_ok read, whole⟩
    | cons c rest inductionHypothesis =>
        obtain ⟨other, absentRest⟩ : ¬ mark = c ∧ mark ∉ rest := by simpa using absent
        obtain ⟨place, later, atMark⟩ := inductionHypothesis absentRest
        cases read : Reader.literal target [mark] (c :: (rest ++ mark :: back)) with
        | error stuck => exact ⟨place, (seek_cons_of_error read).trans later, atMark⟩
        | ok found =>
            refine ⟨c :: (rest ++ mark :: back), seek_of_ok read, ?_⟩
            have absentSolid := not_mem_trimStart absent
            simp only [Reader.literal] at read
            rw [← List.cons_append, trimStart_append_mark solid] at read ⊢
            cases shape : trimStart (c :: rest) with
            | nil => rfl
            | cons d more =>
                rw [shape] at absentSolid read
                have differs : mark ≠ d := fun same => absentSolid (same ▸ List.mem_cons_self)
                simp [List.isPrefixOf, differs] at read
  refine .ok ⟨[], []⟩ (by simp) fun back => ?_
  obtain ⟨place, found, atMark⟩ := reached back
  rw [Reader.skipTo, found]
  dsimp only
  rw [atMark]
  rfl

theorem stopsBefore_ahead (stops : StopsBefore mark reader) :
    StopsBefore mark (Reader.ahead reader) := by
  intro front absent
  simp only [Reader.ahead]
  rcases stops front absent with ⟨found, _, reads⟩ | ⟨stuck, fails⟩
  · simp only [reads]
    exact .ok ⟨front, []⟩ absent fun back => rfl
  · simp only [fails]
    exact .error stuck fun back => rfl

theorem stopsBefore_notAhead (solid : Text.isBlank mark = false) (label : String)
    (stops : StopsBefore mark reader) : StopsBefore mark (Reader.notAhead label reader) := by
  intro front absent
  simp only [Reader.notAhead, trimStart_append_mark solid]
  rcases stops front absent with ⟨found, _, reads⟩ | ⟨stuck, fails⟩
  · simp only [reads]
    exact .error ⟨trimStart front, label⟩ fun back => rfl
  · simp only [fails]
    exact .ok ⟨front, []⟩ absent fun back => rfl

/-! ## Captures -/

theorem stopsBefore_silent (stops : StopsBefore mark reader) :
    StopsBefore mark (Reader.silent reader) := by
  intro front absent
  simp only [Reader.silent]
  rcases stops front absent with ⟨found, absentFound, reads⟩ | ⟨stuck, fails⟩
  · simp only [reads]
    exact .ok ⟨found.rest, []⟩ absentFound fun back => rfl
  · simp only [fails]
    exact .error stuck fun back => rfl

/-- What is read before the mark does not depend on the text after it. -/
theorem between_append_tail (start rest tail : List Char) :
    Reader.between (start ++ tail) (rest ++ tail) = Reader.between start rest := by
  rw [Reader.between, Reader.between, List.length_append, List.length_append,
    Nat.add_sub_add_right, List.take_append_of_le_length (Nat.sub_le _ _)]

theorem stopsBefore_named (solid : Text.isBlank mark = false) (name : String)
    (stops : StopsBefore mark reader) : StopsBefore mark (Reader.named name reader) := by
  intro front absent
  simp only [Reader.named, trimStart_append_mark solid]
  rcases stops front absent with ⟨found, absentFound, reads⟩ | ⟨stuck, fails⟩
  · simp only [reads, Reading.append, between_append_tail]
    exact .ok ⟨found.rest, found.captures ++
      [⟨name, String.ofList (Text.trim (Reader.between (trimStart front) found.rest))⟩]⟩
      absentFound fun back => rfl
  · simp only [fails, Stuck.append, List.length_append, Nat.add_le_add_iff_right]
    by_cases atStart : (trimStart front).length ≤ stuck.rest.length
    · simp only [if_pos atStart]
      exact .error ⟨stuck.rest, name⟩ fun back => rfl
    · simp only [if_neg atStart]
      exact .error stuck fun back => rfl

end

/-! ## Every pattern -/

mutual

theorem stopsBefore_reader (solid : Text.isBlank mark = false) :
    ∀ pattern : Pattern, pattern.stopsBefore mark = true → StopsBefore mark pattern.reader
  | .keyword _, free => stopsBefore_keyword solid _ (by simpa [stopsBefore] using free)
  | .literal _, free => stopsBefore_literal solid _ (by simpa [stopsBefore] using free)
  | .word _ _, free => by
      simp only [stopsBefore, Bool.and_eq_true, Bool.not_eq_true'] at free
      exact stopsBefore_word solid _ free.1 free.2
  | .seq parts, free => stopsBefore_sequence (stopsBefore_readers solid parts free)
  | .longest alternatives, free =>
      stopsBefore_longest _ (stopsBefore_readers solid alternatives free)
  | .first alternatives, free => stopsBefore_first _ (stopsBefore_readers solid alternatives free)
  | .optional inner, free => stopsBefore_optional (stopsBefore_reader solid inner free)
  | .zeroOrMore inner, free => stopsBefore_zeroOrMore (stopsBefore_reader solid inner free)
  | .anyOrder group, free => stopsBefore_picks solid _ (stopsBefore_members solid group free)
  | .skipTo target, free => by
      cases target with
      | literal text =>
          have isMark : text.toList = [mark] := by simpa [stopsBefore] using free
          simp only [reader, isMark]
          exact stopsBefore_skipTo_mark solid _ _
      | _ => simp [stopsBefore] at free
  | .ahead inner, free => stopsBefore_ahead (stopsBefore_reader solid inner free)
  | .notAhead inner, free => stopsBefore_notAhead solid _ (stopsBefore_reader solid inner free)
  | .windowEnd, free => by simp [stopsBefore] at free
  | .silent inner, free => stopsBefore_silent (stopsBefore_reader solid inner free)
  | .named name inner, free => stopsBefore_named solid name (stopsBefore_reader solid inner free)

theorem stopsBefore_readers (solid : Text.isBlank mark = false) :
    ∀ patterns : List Pattern, allStopBefore mark patterns = true →
      ∀ reader ∈ readers patterns, StopsBefore mark reader
  | [], _ => by simp [readers]
  | pattern :: others, free => by
      simp only [allStopBefore, Bool.and_eq_true] at free
      intro reader member
      rcases List.mem_cons.1 member with rfl | later
      · exact stopsBefore_reader solid pattern free.1
      · exact stopsBefore_readers solid others free.2 reader later

theorem stopsBefore_members (solid : Text.isBlank mark = false) :
    ∀ group : List Pattern, allStopBefore mark group = true →
      ∀ member ∈ memberReaders group, StopsBefore mark member.reader
  | [], _ => by simp [memberReaders]
  | pattern :: others, free => by
      simp only [allStopBefore, Bool.and_eq_true] at free
      have stops := stopsBefore_reader solid pattern free.1
      have later := stopsBefore_members solid others free.2
      intro member inside
      cases pattern with
      | optional inner =>
          rcases List.mem_cons.1 inside with rfl | isLater
          · exact stopsBefore_reader solid inner free.1
          · exact later member isLater
      | _ =>
          rcases List.mem_cons.1 inside with rfl | isLater
          · exact stops
          · exact later member isLater

end

/-! ## Patterns up to the mark -/

/-- The outcome with more text left. -/
def withTail (tail : List Char) : Except Stuck Reading → Except Stuck Reading
  | .ok found => .ok (found.append tail)
  | .error stuck => .error (stuck.append tail)

/-- The first mark decides the outcome together with the text before it. What comes after the mark
is left. -/
def ClosedBy (mark : Char) (reader : Reader) : Prop :=
  ∀ front back, mark ∉ front →
    reader (front ++ mark :: back) = withTail back (reader (front ++ [mark]))

theorem StopsBefore.closedBy {reader : Reader} (stops : StopsBefore mark reader) :
    ClosedBy mark reader := by
  intro front back absent
  rcases stops front absent with ⟨found, _, reads⟩ | ⟨stuck, fails⟩
  · have whole : reader (front ++ mark :: back) = .ok (found.append (mark :: back)) := reads back
    have cut : reader (front ++ [mark]) = .ok (found.append [mark]) := reads []
    rw [whole, cut]
    simp [withTail, Reading.append]
  · have whole : reader (front ++ mark :: back) = .error (stuck.append (mark :: back)) := fails back
    have cut : reader (front ++ [mark]) = .error (stuck.append [mark]) := fails []
    rw [whole, cut]
    simp [withTail, Stuck.append]

/-- A sequence may end with the mark itself. -/
theorem closedBy_sequence_concat (solid : Text.isBlank mark = false) {readers : List Reader}
    (each : ∀ reader ∈ readers, StopsBefore mark reader) (label : String) :
    ClosedBy mark (Reader.sequence (readers ++ [Reader.literal label [mark]])) := by
  intro front back absent
  rcases stopsBefore_sequence each front absent with ⟨found, absentFound, reads⟩ | ⟨stuck, fails⟩
  · have absentSolid := not_mem_trimStart absentFound
    dsimp only at reads
    simp only [sequence_concat, reads, Reader.literal, Reading.append, trimStart_append_mark solid]
    cases shape : trimStart found.rest with
    | nil => simp [withTail, Reading.append]
    | cons d more =>
        rw [shape] at absentSolid
        have differs : mark ≠ d := fun same => absentSolid (same ▸ List.mem_cons_self)
        simp [List.isPrefixOf, differs, withTail, Stuck.append]
  · dsimp only at fails
    simp [sequence_concat, fails, withTail, Stuck.append]

end

end GodotGraph.Pattern
