import GodotGraph.Proofs.Pattern.AnyOrder
import GodotGraph.Proofs.Pattern.Spacing

/-!
Contract: blanks in front of a text never decide whether a pattern matches it.

Owns:
- texts that are the same behind their leading blanks, and what is left of both by one reader;
- the search for a target in such texts;
- one lemma for each way of composing patterns, and from them the one for all patterns.

Does not own: captures and the places of failures, which do depend on the blanks.

Two things compare places: a choice of the longest alternative, and a repetition that stops when
a round reads nothing. Both may turn out differently when only blanks are read. The texts left
then differ in their leading blanks at most.
-/

set_option autoImplicit false

namespace GodotGraph.Text

/-- Trimming keeps the order of the places of a text. -/
theorem trimStart_suffix_of_suffix {rest text : List Char} (ends : rest <:+ text) :
    trimStart rest <:+ trimStart text := by
  induction text with
  | nil =>
      rw [List.suffix_nil.1 ends]
  | cons c others inductionHypothesis =>
      rcases List.suffix_cons_iff.1 ends with rfl | later
      · exact List.suffix_refl _
      · cases blank : isBlank c with
        | true =>
            rw [trimStart_cons_of_blank blank]
            exact inductionHypothesis later
        | false =>
            rw [trimStart_cons_of_solid blank]
            exact (trimStart_suffix rest).trans ends

theorem trimStart_trimStart (text : List Char) : trimStart (trimStart text) = trimStart text :=
  trimStart_of_startsBlank (startsBlank_trimStart text)

/-- Of two places of a text take the later one, and of two places of another text as well. If the
places correspond behind their blanks, so do the ones taken. -/
theorem trimStart_later {text other found reached last kept : List Char}
    (foundEnds : found <:+ text) (reachedEnds : reached <:+ text)
    (lastEnds : last <:+ other) (keptEnds : kept <:+ other)
    (same : trimStart found = trimStart last) (sameBest : trimStart reached = trimStart kept) :
    trimStart (if found.length < reached.length then found else reached) =
      trimStart (if last.length < kept.length then last else kept) := by
  have suffixOf : ∀ {first second whole : List Char}, first <:+ whole → second <:+ whole →
      first.length ≤ second.length → trimStart first <:+ trimStart second :=
    fun firstEnds secondEnds shorter =>
      trimStart_suffix_of_suffix (List.suffix_of_suffix_length_le firstEnds secondEnds shorter)
  -- Where the choices differ, each place lies behind the other one, so only blanks are between.
  have antisymm : ∀ {first second : List Char}, first <:+ second → second <:+ first →
      first = second :=
    fun ends back => ends.eq_of_length_le back.length_le
  by_cases further : found.length < reached.length
  · by_cases furtherOther : last.length < kept.length
    · rw [if_pos further, if_pos furtherOther, same]
    · rw [if_pos further, if_neg furtherOther, ← sameBest]
      have forth := suffixOf foundEnds reachedEnds (Nat.le_of_lt further)
      have back := suffixOf keptEnds lastEnds (Nat.not_lt.1 furtherOther)
      rw [← same, ← sameBest] at back
      exact antisymm forth back
  · by_cases furtherOther : last.length < kept.length
    · rw [if_neg further, if_pos furtherOther, ← same]
      have forth := suffixOf reachedEnds foundEnds (Nat.not_lt.1 further)
      have back := suffixOf lastEnds keptEnds (Nat.le_of_lt furtherOther)
      rw [← same, ← sameBest] at back
      exact antisymm forth back
    · rw [if_neg further, if_neg furtherOther, sameBest]

end GodotGraph.Text

namespace GodotGraph.Pattern

open Text (trimStart)
open Reader (Shrinks)

/-! ## Outcomes on two texts -/

/-- Outcomes on texts with different leading blanks: readings that leave the same, but for the
blanks in front of it, or failures. -/
def Matched (outcome other : Except Stuck Reading) : Prop :=
  (∃ found last, outcome = .ok found ∧ other = .ok last ∧
    trimStart found.rest = trimStart last.rest) ∨
    ∃ stuck another, outcome = .error stuck ∧ other = .error another

/-- The reader matches a text or not, whatever blanks are put in front of it. -/
def IgnoresLeading (reader : Reader) : Prop :=
  ∀ left right, trimStart left = trimStart right → Matched (reader left) (reader right)

namespace Matched

theorem ok {found last : Reading} (same : trimStart found.rest = trimStart last.rest) :
    Matched (.ok found) (.ok last) :=
  Or.inl ⟨found, last, rfl, rfl, same⟩

theorem error (stuck another : Stuck) : Matched (.error stuck) (.error another) :=
  Or.inr ⟨stuck, another, rfl, rfl⟩

theorem refl (outcome : Except Stuck Reading) : Matched outcome outcome := by
  cases outcome with
  | ok found => exact ok rfl
  | error stuck => exact error stuck stuck

/-- What comes after a reading decides the outcome. -/
theorem andThen {captures others : Trail} {outcome other : Except Stuck Reading} :
    Matched outcome other → Matched
      (match outcome with
        | .error stuck => .error stuck
        | .ok last => .ok ⟨last.rest, captures ++ last.captures⟩)
      (match other with
        | .error stuck => .error stuck
        | .ok last => .ok ⟨last.rest, others ++ last.captures⟩) := by
  rintro (⟨found, last, rfl, rfl, same⟩ | ⟨stuck, another, rfl, rfl⟩)
  · exact ok same
  · exact error stuck another

end Matched

/-! ## Single words

Each of these first drops the leading blanks, so both outcomes are the same. -/

theorem ignoresLeading_keyword (label : String) (expected : List Char) :
    IgnoresLeading (Reader.keyword label expected) := by
  intro left right same
  simp only [Reader.keyword, same]
  exact .refl _

theorem ignoresLeading_literal (label : String) (expected : List Char) :
    IgnoresLeading (Reader.literal label expected) := by
  intro left right same
  simp only [Reader.literal, same]
  exact .refl _

theorem ignoresLeading_word (label : String) (opens continues : Char → Bool) :
    IgnoresLeading (Reader.word label opens continues) := by
  intro left right same
  simp only [Reader.word, same]
  exact .refl _

theorem ignoresLeading_windowEnd (label : String) : IgnoresLeading (Reader.windowEnd label) := by
  intro left right same
  simp only [Reader.windowEnd, same]
  exact .refl _

/-! ## Sequences and choices -/

theorem ignoresLeading_sequence {readers : List Reader}
    (each : ∀ reader ∈ readers, IgnoresLeading reader) :
    IgnoresLeading (Reader.sequence readers) := by
  induction readers with
  | nil => exact fun left right same => .ok same
  | cons reader others inductionHypothesis =>
      intro left right same
      have later := inductionHypothesis fun other member => each other (List.mem_cons_of_mem _ member)
      simp only [Reader.sequence]
      rcases each reader List.mem_cons_self left right same with
        ⟨found, last, read, readOther, sameRest⟩ | ⟨stuck, another, read, readOther⟩
      · rw [read, readOther]
        exact (later found.rest last.rest sameRest).andThen
      · rw [read, readOther]
        exact .error stuck another

section

variable {left right : List Char} {readers : List Reader}

theorem firstOf_matched (label : String) (same : trimStart left = trimStart right)
    (each : ∀ reader ∈ readers, IgnoresLeading reader) (failure other : Option Stuck) :
    Matched (Reader.firstOf label left readers failure)
      (Reader.firstOf label right readers other) := by
  induction readers generalizing failure other with
  | nil => cases failure <;> cases other <;> exact .error _ _
  | cons reader others inductionHypothesis =>
      simp only [Reader.firstOf]
      rcases each reader List.mem_cons_self left right same with
        ⟨found, last, read, readOther, sameRest⟩ | ⟨stuck, another, read, readOther⟩
      · rw [read, readOther]
        exact .ok sameRest
      · rw [read, readOther]
        exact inductionHypothesis
          (fun next member => each next (List.mem_cons_of_mem _ member)) _ _

/-- The best readings of both texts so far end at places of the texts, at the same one behind
the blanks. -/
structure Counterpart (left right : List Char) (found last : Reading) : Prop where
  ends : found.rest <:+ left
  endsOther : last.rest <:+ right
  rest : trimStart found.rest = trimStart last.rest

theorem Counterpart.better {found last reached kept : Reading}
    (counterpart : Counterpart left right found last)
    (best : Counterpart left right reached kept) :
    Counterpart left right (if found.rest.length < reached.rest.length then found else reached)
      (if last.rest.length < kept.rest.length then last else kept) where
  ends := by
    split
    · exact counterpart.ends
    · exact best.ends
  endsOther := by
    split
    · exact counterpart.endsOther
    · exact best.endsOther
  rest := by
    rw [apply_ite Reading.rest, apply_ite Reading.rest]
    exact Text.trimStart_later counterpart.ends best.ends counterpart.endsOther best.endsOther
      counterpart.rest best.rest

theorem longestOf_matched (label : String) (same : trimStart left = trimStart right)
    (each : ∀ reader ∈ readers, IgnoresLeading reader ∧ Shrinks reader)
    {best bestOther : Option Reading}
    (bests : Option.Rel (Counterpart left right) best bestOther) (failure other : Option Stuck) :
    Matched (Reader.longestOf label left readers best failure)
      (Reader.longestOf label right readers bestOther other) := by
  induction readers generalizing best bestOther failure other with
  | nil =>
      cases bests with
      | none => cases failure <;> cases other <;> exact .error _ _
      | some counterpart => exact .ok counterpart.rest
  | cons reader others inductionHypothesis =>
      have later :=
        @inductionHypothesis fun next member => each next (List.mem_cons_of_mem _ member)
      obtain ⟨ignores, shrinks⟩ := each reader List.mem_cons_self
      simp only [Reader.longestOf]
      rcases ignores left right same with
        ⟨found, last, read, readOther, sameRest⟩ | ⟨stuck, another, read, readOther⟩
      · have counterpart : Counterpart left right found last :=
          ⟨shrinks left found read, shrinks right last readOther, sameRest⟩
        rw [read, readOther]
        apply later
        cases bests with
        | none => exact .some counterpart
        | @some reached kept best =>
            simp only [decide_eq_true_eq]
            rw [← apply_ite some, ← apply_ite some]
            exact .some (counterpart.better best)
      · rw [read, readOther]
        exact later bests _ _

end

theorem ignoresLeading_first {readers : List Reader} (label : String)
    (each : ∀ reader ∈ readers, IgnoresLeading reader) :
    IgnoresLeading (Reader.first label readers) :=
  fun _ _ same => firstOf_matched label same each none none

theorem ignoresLeading_longest {readers : List Reader} (label : String)
    (each : ∀ reader ∈ readers, IgnoresLeading reader ∧ Shrinks reader) :
    IgnoresLeading (Reader.longest label readers) :=
  fun _ _ same => longestOf_matched label same each .none none none

/-! ## Repetitions -/

section

variable {reader : Reader} {left right : List Char}

theorem ignoresLeading_optional (ignores : IgnoresLeading reader) :
    IgnoresLeading (Reader.optional reader) := by
  intro left right same
  simp only [Reader.optional]
  rcases ignores left right same with
    ⟨found, last, read, readOther, sameRest⟩ | ⟨stuck, another, read, readOther⟩
  · rw [read, readOther]
    exact .ok sameRest
  · rw [read, readOther]
    exact .ok same

/-- Where one text gives a round that reads nothing, any number of rounds of the other text reads
blanks at most. -/
theorem trimStart_rounds_of_idle (ignores : IgnoresLeading reader) (shrinks : Shrinks reader)
    {idle : Reading} (read : reader right = .ok idle) (stays : ¬ idle.rest.length < right.length)
    (same : trimStart left = trimStart right) (count : Nat) :
    trimStart (Reader.rounds reader count left).rest = trimStart right := by
  have sameIdle : idle.rest = right :=
    (shrinks right idle read).eq_of_length_le (Nat.not_lt.1 stays)
  induction count generalizing left with
  | zero => exact same
  | succ count inductionHypothesis =>
      simp only [Reader.rounds]
      rcases ignores left right same with
        ⟨found, last, readLeft, readRight, sameRest⟩ | ⟨stuck, another, _, readRight⟩
      · obtain rfl : last = idle := Except.ok.inj (readRight.symm.trans read)
        rw [sameIdle] at sameRest
        rw [readLeft]
        dsimp only
        by_cases moves : found.rest.length < left.length
        · rw [if_pos moves]
          exact inductionHypothesis sameRest
        · rw [if_neg moves]
          exact same
      · cases readRight.symm.trans read

/-- With rounds enough for each text, the rounds of both end at the same place but for blanks. A
round may move in one text and stand still in the other; then blanks are all that is read. -/
theorem trimStart_rounds (ignores : IgnoresLeading reader) (shrinks : Shrinks reader)
    (same : trimStart left = trimStart right) {count other : Nat}
    (enough : left.length < count) (enoughOther : right.length < other) :
    trimStart (Reader.rounds reader count left).rest =
      trimStart (Reader.rounds reader other right).rest := by
  induction count generalizing left right other with
  | zero => exact absurd enough (Nat.not_lt_zero _)
  | succ count inductionHypothesis =>
      obtain ⟨other, rfl⟩ := Nat.exists_eq_add_one_of_ne_zero (Nat.ne_zero_of_lt enoughOther)
      rcases ignores left right same with
        ⟨found, last, read, readOther, sameRest⟩ | ⟨stuck, another, read, readOther⟩
      · by_cases moves : found.rest.length < left.length
        · by_cases movesOther : last.rest.length < right.length
          · simp only [Reader.rounds, read, readOther, if_pos moves, if_pos movesOther]
            exact inductionHypothesis sameRest (by omega) (by omega)
          · rw [trimStart_rounds_of_idle ignores shrinks readOther movesOther same]
            simp only [Reader.rounds, readOther, if_neg movesOther]
        · rw [trimStart_rounds_of_idle ignores shrinks read moves same.symm]
          simp only [Reader.rounds, read, if_neg moves]
      · simp only [Reader.rounds, read, readOther]
        exact same

theorem ignoresLeading_zeroOrMore (ignores : IgnoresLeading reader) (shrinks : Shrinks reader) :
    IgnoresLeading (Reader.zeroOrMore reader) :=
  fun _ _ same =>
    .ok (trimStart_rounds ignores shrinks same (Nat.lt_succ_self _) (Nat.lt_succ_self _))

end

/-! ## Groups in any order -/

section

variable {group : List Reader.Member}

/-- The same member is picked from both texts, or none. -/
theorem pick_matched (each : ∀ member ∈ group, IgnoresLeading member.reader)
    {left right : List Char} (same : trimStart left = trimStart right) :
    (∃ found last fewer, Reader.pick left group = some (found, fewer) ∧
      Reader.pick right group = some (last, fewer) ∧
        trimStart found.rest = trimStart last.rest ∧
          ∀ member ∈ fewer, IgnoresLeading member.reader) ∨
      Reader.pick left group = none ∧ Reader.pick right group = none := by
  induction group with
  | nil => exact Or.inr ⟨rfl, rfl⟩
  | cons member others inductionHypothesis =>
      have eachOther : ∀ other ∈ others, IgnoresLeading other.reader :=
        fun other isOther => each other (List.mem_cons_of_mem _ isOther)
      have ignores := each member List.mem_cons_self
      simp only [Reader.pick]
      rcases ignores left right same with
        ⟨found, last, read, readOther, sameRest⟩ | ⟨stuck, another, read, readOther⟩
      · rw [read, readOther]
        exact Or.inl ⟨found, last, others, rfl, rfl, sameRest, eachOther⟩
      · rw [read, readOther]
        dsimp only
        rcases inductionHypothesis eachOther with
          ⟨found, last, fewer, picked, pickedOther, sameRest, eachFewer⟩ | ⟨none, noneOther⟩
        · rw [picked, pickedOther]
          refine Or.inl ⟨found, last, member :: fewer, rfl, rfl, sameRest, ?_⟩
          intro next isNext
          rcases List.mem_cons.1 isNext with rfl | isFewer
          · exact ignores
          · exact eachFewer next isFewer
        · rw [none, noneOther]
          exact Or.inr ⟨rfl, rfl⟩

theorem ignoresLeading_settle (left : List Reader.Member) :
    IgnoresLeading (Reader.picks.settle left) := by
  intro first second same
  unfold Reader.picks.settle
  cases left.find? fun member => member.required with
  | some missing => exact .error _ _
  | none => exact .ok same

theorem ignoresLeading_picks (count : Nat)
    (each : ∀ member ∈ group, IgnoresLeading member.reader) :
    IgnoresLeading (Reader.picks count group) := by
  induction count generalizing group with
  | zero =>
      intro left right same
      simp only [Reader.picks]
      exact ignoresLeading_settle group left right same
  | succ count inductionHypothesis =>
      intro left right same
      simp only [Reader.picks]
      rcases pick_matched each same with
        ⟨found, last, fewer, picked, pickedOther, sameRest, eachFewer⟩ | ⟨none, noneOther⟩
      · rw [picked, pickedOther]
        exact (inductionHypothesis eachFewer found.rest last.rest sameRest).andThen
      · rw [none, noneOther]
        exact ignoresLeading_settle group left right same

end

/-! ## Skipping and looking ahead -/

section

variable {reader : Reader}

/-- A search passes leading blanks or stops among them. Behind the blanks it is at the same place
either way. -/
theorem seek_trimStart (ignores : IgnoresLeading reader) (text : List Char) :
    (Reader.seek reader text).map trimStart =
      (Reader.seek reader (trimStart text)).map trimStart := by
  induction text with
  | nil => rfl
  | cons c rest inductionHypothesis =>
      cases blank : Text.isBlank c with
      | false => rw [Text.trimStart_cons_of_solid blank]
      | true =>
          have trimmed := Text.trimStart_trimStart (c :: rest)
          rcases ignores (c :: rest) (trimStart (c :: rest)) trimmed.symm with
            ⟨found, last, read, readOther, _⟩ | ⟨stuck, another, read, _⟩
          · rw [seek_of_ok read, seek_of_ok readOther, Option.map_some, Option.map_some, trimmed]
          · rw [seek_cons_of_error read, inductionHypothesis, Text.trimStart_cons_of_blank blank]

theorem ignoresLeading_skipTo (label : String) (ignores : IgnoresLeading reader) :
    IgnoresLeading (Reader.skipTo label reader) := by
  intro left right same
  have reached : (Reader.seek reader left).map trimStart = (Reader.seek reader right).map trimStart := by
    rw [seek_trimStart ignores left, same, ← seek_trimStart ignores right]
  simp only [Reader.skipTo]
  cases found : Reader.seek reader left with
  | none =>
      rw [found, Option.map_none, eq_comm, Option.map_eq_none_iff] at reached
      rw [reached]
      exact .error _ _
  | some place =>
      rw [found, Option.map_some, eq_comm, Option.map_eq_some_iff] at reached
      obtain ⟨other, foundOther, samePlace⟩ := reached
      rw [foundOther]
      dsimp only
      rw [samePlace]
      exact .ok rfl

theorem ignoresLeading_ahead (ignores : IgnoresLeading reader) :
    IgnoresLeading (Reader.ahead reader) := by
  intro left right same
  simp only [Reader.ahead]
  rcases ignores left right same with
    ⟨found, last, read, readOther, _⟩ | ⟨stuck, another, read, readOther⟩
  · rw [read, readOther]
    exact .ok same
  · rw [read, readOther]
    exact .error _ _

theorem ignoresLeading_notAhead (label : String) (ignores : IgnoresLeading reader) :
    IgnoresLeading (Reader.notAhead label reader) := by
  intro left right same
  simp only [Reader.notAhead]
  rcases ignores left right same with
    ⟨found, last, read, readOther, _⟩ | ⟨stuck, another, read, readOther⟩
  · rw [read, readOther]
    exact .error _ _
  · rw [read, readOther]
    exact .ok same

/-! ## Captures -/

theorem ignoresLeading_silent (ignores : IgnoresLeading reader) :
    IgnoresLeading (Reader.silent reader) := by
  intro left right same
  simp only [Reader.silent]
  rcases ignores left right same with
    ⟨found, last, read, readOther, sameRest⟩ | ⟨stuck, another, read, readOther⟩
  · rw [read, readOther]
    exact .ok sameRest
  · rw [read, readOther]
    exact .error _ _

theorem ignoresLeading_named (name : String) (ignores : IgnoresLeading reader) :
    IgnoresLeading (Reader.named name reader) := by
  intro left right same
  simp only [Reader.named]
  rcases ignores left right same with
    ⟨found, last, read, readOther, sameRest⟩ | ⟨stuck, another, read, readOther⟩
  · rw [read, readOther]
    exact .ok sameRest
  · rw [read, readOther]
    dsimp only
    rw [← apply_ite Except.error, ← apply_ite Except.error]
    exact .error _ _

end

/-! ## Every pattern -/

mutual

/-- Whether a pattern matches does not depend on the blanks in front of the text. -/
theorem ignoresLeading_reader : ∀ pattern : Pattern, IgnoresLeading pattern.reader
  | .keyword _ => ignoresLeading_keyword _ _
  | .literal _ => ignoresLeading_literal _ _
  | .word _ _ => ignoresLeading_word _ _ _
  | .seq parts => ignoresLeading_sequence (ignoresLeading_readers parts)
  | .longest alternatives => by
      apply ignoresLeading_longest
      intro reader member
      refine ⟨ignoresLeading_readers alternatives reader member, ?_⟩
      rw [readers_eq_map] at member
      obtain ⟨pattern, -, rfl⟩ := List.mem_map.1 member
      exact shrinks_reader pattern
  | .first alternatives => ignoresLeading_first _ (ignoresLeading_readers alternatives)
  | .optional inner => ignoresLeading_optional (ignoresLeading_reader inner)
  | .zeroOrMore inner =>
      ignoresLeading_zeroOrMore (ignoresLeading_reader inner) (shrinks_reader inner)
  | .anyOrder group => ignoresLeading_picks _ (ignoresLeading_members group)
  | .skipTo target => ignoresLeading_skipTo _ (ignoresLeading_reader target)
  | .ahead inner => ignoresLeading_ahead (ignoresLeading_reader inner)
  | .notAhead inner => ignoresLeading_notAhead _ (ignoresLeading_reader inner)
  | .windowEnd => ignoresLeading_windowEnd _
  | .silent inner => ignoresLeading_silent (ignoresLeading_reader inner)
  | .named name inner => ignoresLeading_named name (ignoresLeading_reader inner)

theorem ignoresLeading_readers : ∀ patterns : List Pattern,
    ∀ reader ∈ readers patterns, IgnoresLeading reader
  | [] => by simp [readers]
  | pattern :: others => by
      intro reader member
      rcases List.mem_cons.1 member with rfl | later
      · exact ignoresLeading_reader pattern
      · exact ignoresLeading_readers others reader later

theorem ignoresLeading_members : ∀ group : List Pattern,
    ∀ member ∈ memberReaders group, IgnoresLeading member.reader
  | [] => by simp [memberReaders]
  | pattern :: others => by
      have ignores := ignoresLeading_reader pattern
      have later := ignoresLeading_members others
      intro member inside
      cases pattern with
      | optional inner =>
          rcases List.mem_cons.1 inside with rfl | isLater
          · exact ignoresLeading_reader inner
          · exact later member isLater
      | _ =>
          rcases List.mem_cons.1 inside with rfl | isLater
          · exact ignores
          · exact later member isLater

end

end GodotGraph.Pattern
