import GodotGraph.Proofs.Pattern.Position
import GodotGraph.Proofs.Pattern.Reader
import Mathlib.Data.List.TakeWhile

/-!
Contract: which characters a pattern can read.

Owns:
- the characters that the words of a pattern contain;
- the proof that a pattern reads no others, apart from blanks;
- what a pattern reads that ends with a literal.

Skipping ahead goes over any character, so a pattern that skips may read everything.
-/

set_option autoImplicit false

namespace GodotGraph.Pattern

mutual

/-- Some word of the pattern may contain the character. -/
def mayRead (c : Char) : Pattern → Bool
  | keyword text => text.toList.contains c
  | literal text => text.toList.contains c
  | word opens continues => opens.contains c || continues.contains c
  | seq parts => anyMayRead c parts
  | longest alternatives => anyMayRead c alternatives
  | first alternatives => anyMayRead c alternatives
  | optional inner => mayRead c inner
  | zeroOrMore inner => mayRead c inner
  | anyOrder group => anyMayRead c group
  | skipTo _ => true
  | ahead _ => false
  | notAhead _ => false
  | windowEnd => false
  | silent inner => mayRead c inner
  | named _ inner => mayRead c inner

/-- Some word of some of the patterns may contain the character. -/
def anyMayRead (c : Char) : List Pattern → Bool
  | [] => false
  | pattern :: others => mayRead c pattern || anyMayRead c others

end

/-- The second text ends the first, and the part before it is free of the character. -/
def FreeUpTo (c : Char) (text rest : List Char) : Prop :=
  ∃ read, text = read ++ rest ∧ c ∉ read

/-- Every success reads a part that is free of the character. -/
def Avoids (c : Char) (reader : Reader) : Prop :=
  ∀ text found, reader text = .ok found → FreeUpTo c text found.rest

namespace FreeUpTo

variable {c : Char}

theorem refl (text : List Char) : FreeUpTo c text text :=
  ⟨[], rfl, by simp⟩

theorem trans {text middle rest : List Char} (first : FreeUpTo c text middle)
    (second : FreeUpTo c middle rest) : FreeUpTo c text rest := by
  obtain ⟨front, rfl, absentFront⟩ := first
  obtain ⟨back, rfl, absentBack⟩ := second
  exact ⟨front ++ back, by simp, by simp [absentFront, absentBack]⟩

theorem trimStart (solid : Text.isBlank c = false) (text : List Char) :
    FreeUpTo c text (Text.trimStart text) := by
  refine ⟨text.takeWhile Text.isBlank, (List.takeWhile_append_dropWhile).symm, ?_⟩
  intro member
  have blank := List.mem_takeWhile_imp member
  rw [solid] at blank
  exact absurd blank (by decide)

end FreeUpTo

section

variable {c : Char} {reader : Reader}

/-! ## Single words -/

theorem avoids_literal (solid : Text.isBlank c = false) (label : String) {expected : List Char}
    (absent : c ∉ expected) : Avoids c (Reader.literal label expected) := by
  intro text found read
  simp only [Reader.literal] at read
  split at read
  · next starts =>
      obtain rfl := Except.ok.inj read
      obtain ⟨rest, shape⟩ := List.isPrefixOf_iff_prefix.1 starts
      refine (FreeUpTo.trimStart solid text).trans ⟨expected, ?_, absent⟩
      rw [← shape, List.drop_left]
  · exact absurd read (by simp)

/-- A keyword reads what a literal reads, if it reads anything. -/
theorem literal_of_keyword {label : String} {expected text : List Char} {found : Reading}
    (read : Reader.keyword label expected text = .ok found) :
    Reader.literal label expected text = .ok found := by
  simp only [Reader.keyword] at read
  split at read
  · next both =>
      rw [Bool.and_eq_true] at both
      simpa [Reader.literal, both.1] using read
  · exact absurd read (by simp)

theorem avoids_keyword (solid : Text.isBlank c = false) (label : String) {expected : List Char}
    (absent : c ∉ expected) : Avoids c (Reader.keyword label expected) :=
  fun text found read => avoids_literal solid label absent text found (literal_of_keyword read)

theorem avoids_word (solid : Text.isBlank c = false) (label : String)
    {opens continues : Char → Bool} (notOpening : opens c = false)
    (notContinuing : continues c = false) : Avoids c (Reader.word label opens continues) := by
  intro text found read
  have blanks := FreeUpTo.trimStart solid text
  simp only [Reader.word] at read
  cases shape : Text.trimStart text with
  | nil => simp [shape] at read
  | cons d rest =>
      rw [shape] at read blanks
      dsimp only at read
      split at read
      · next opened =>
          obtain rfl := Except.ok.inj read
          have other : c ≠ d := by
            rintro rfl
            simp [notOpening] at opened
          have run : c ∉ rest.takeWhile continues := by
            intro member
            have continued := List.mem_takeWhile_imp member
            simp [notContinuing] at continued
          exact blanks.trans ⟨d :: rest.takeWhile continues, by simp, by simp [other, run]⟩
      · exact absurd read (by simp)

theorem avoids_windowEnd (solid : Text.isBlank c = false) (label : String) :
    Avoids c (Reader.windowEnd label) := by
  intro text found read
  simp only [Reader.windowEnd] at read
  split at read
  · obtain rfl := Except.ok.inj read
    exact FreeUpTo.trimStart solid text
  · exact absurd read (by simp)

/-! ## Sequences and choices -/

theorem avoids_sequence {readers : List Reader} (each : ∀ reader ∈ readers, Avoids c reader) :
    Avoids c (Reader.sequence readers) := by
  induction readers with
  | nil =>
      intro text found read
      obtain rfl := Except.ok.inj read
      exact FreeUpTo.refl text
  | cons reader others inductionHypothesis =>
      intro text found read
      have later := inductionHypothesis fun other member => each other (List.mem_cons_of_mem _ member)
      simp only [Reader.sequence] at read
      split at read
      · exact absurd read (by simp)
      · next middle readHead =>
          split at read
          · exact absurd read (by simp)
          · next last readOthers =>
              obtain rfl := Except.ok.inj read
              exact (each reader List.mem_cons_self text middle readHead).trans
                (later middle.rest last readOthers)

theorem avoids_longestOf {readers : List Reader} (each : ∀ reader ∈ readers, Avoids c reader)
    (label : String) (text : List Char) {best : Option Reading} {failure : Option Stuck}
    (reached : ∀ found ∈ best, FreeUpTo c text found.rest) {found : Reading}
    (read : Reader.longestOf label text readers best failure = .ok found) :
    FreeUpTo c text found.rest := by
  induction readers generalizing best failure with
  | nil =>
      cases best with
      | none => cases failure <;> simp [Reader.longestOf] at read
      | some reading =>
          obtain rfl := Except.ok.inj read
          exact reached reading rfl
  | cons reader others inductionHypothesis =>
      have later := @inductionHypothesis fun other member =>
        each other (List.mem_cons_of_mem _ member)
      simp only [Reader.longestOf] at read
      split at read
      · next here readHead =>
          refine later ?_ read
          intro candidate member
          have either : candidate = here ∨ candidate ∈ best := by
            split_ifs at member
            · exact Or.inl (Option.some.inj member).symm
            · exact Or.inr member
          rcases either with rfl | before
          · exact each reader List.mem_cons_self text _ readHead
          · exact reached candidate before
      · exact later reached read

theorem avoids_longest {readers : List Reader} (each : ∀ reader ∈ readers, Avoids c reader)
    (label : String) : Avoids c (Reader.longest label readers) :=
  fun text _ read => avoids_longestOf each label text (by simp) read

theorem avoids_firstOf {readers : List Reader} (each : ∀ reader ∈ readers, Avoids c reader)
    (label : String) (text : List Char) {failure : Option Stuck} {found : Reading}
    (read : Reader.firstOf label text readers failure = .ok found) :
    FreeUpTo c text found.rest := by
  induction readers generalizing failure with
  | nil => cases failure <;> simp [Reader.firstOf] at read
  | cons reader others inductionHypothesis =>
      simp only [Reader.firstOf] at read
      split at read
      · next here readHead =>
          obtain rfl := Except.ok.inj read
          exact each reader List.mem_cons_self text _ readHead
      · exact inductionHypothesis (fun other member => each other (List.mem_cons_of_mem _ member))
          read

theorem avoids_first {readers : List Reader} (each : ∀ reader ∈ readers, Avoids c reader)
    (label : String) : Avoids c (Reader.first label readers) :=
  fun text _ read => avoids_firstOf each label text read

theorem avoids_optional (avoids : Avoids c reader) : Avoids c (Reader.optional reader) := by
  intro text found read
  simp only [Reader.optional] at read
  split at read
  · next here readInner =>
      obtain rfl := Except.ok.inj read
      exact avoids text _ readInner
  · obtain rfl := Except.ok.inj read
    exact FreeUpTo.refl text

/-! ## Repetition and groups -/

theorem avoids_rounds (avoids : Avoids c reader) (count : Nat) (text : List Char) :
    FreeUpTo c text (Reader.rounds reader count text).rest := by
  induction count generalizing text with
  | zero => exact FreeUpTo.refl text
  | succ count inductionHypothesis =>
      simp only [Reader.rounds]
      split
      · next found read =>
          split
          · exact (avoids text found read).trans (inductionHypothesis found.rest)
          · exact FreeUpTo.refl text
      · exact FreeUpTo.refl text

theorem avoids_zeroOrMore (avoids : Avoids c reader) : Avoids c (Reader.zeroOrMore reader) := by
  intro text found read
  obtain rfl := Except.ok.inj read
  exact avoids_rounds avoids _ text

/-- A pick reads what some member reads, and leaves members of the group. -/
theorem pick_avoids {group : List Reader.Member} {text : List Char} {found : Reading}
    {left : List Reader.Member} (each : ∀ member ∈ group, Avoids c member.reader)
    (picked : Reader.pick text group = some (found, left)) :
    FreeUpTo c text found.rest ∧ ∀ member ∈ left, Avoids c member.reader := by
  induction group generalizing left with
  | nil => simp [Reader.pick] at picked
  | cons member others inductionHypothesis =>
      have eachOther : ∀ other ∈ others, Avoids c other.reader :=
        fun other inOthers => each other (List.mem_cons_of_mem _ inOthers)
      simp only [Reader.pick] at picked
      split at picked
      · next here read =>
          obtain ⟨rfl, rfl⟩ := Prod.mk.inj (Option.some.inj picked)
          exact ⟨each member List.mem_cons_self text _ read, eachOther⟩
      · obtain ⟨pair, pickedOther, same⟩ := Option.map_eq_some_iff.1 picked
        obtain ⟨rfl, rfl⟩ := Prod.mk.inj same
        obtain ⟨free, eachLeft⟩ := inductionHypothesis eachOther pickedOther
        refine ⟨free, ?_⟩
        intro other inLeft
        rcases List.mem_cons.1 inLeft with rfl | inOthers
        · exact each _ List.mem_cons_self
        · exact eachLeft other inOthers

theorem settle_avoids (group : List Reader.Member) : Avoids c (Reader.picks.settle group) := by
  intro text found read
  simp only [Reader.picks.settle] at read
  split at read
  · exact absurd read (by simp)
  · obtain rfl := Except.ok.inj read
    exact FreeUpTo.refl text

theorem avoids_picks (count : Nat) {group : List Reader.Member}
    (each : ∀ member ∈ group, Avoids c member.reader) : Avoids c (Reader.picks count group) := by
  induction count generalizing group with
  | zero => exact settle_avoids group
  | succ count inductionHypothesis =>
      intro text found read
      simp only [Reader.picks] at read
      split at read
      · next here left picked =>
          obtain ⟨free, eachLeft⟩ := pick_avoids each picked
          split at read
          · exact absurd read (by simp)
          · next last readOthers =>
              obtain rfl := Except.ok.inj read
              exact free.trans (inductionHypothesis eachLeft here.rest last readOthers)
      · exact settle_avoids group text found read

/-! ## Looking ahead and captures -/

theorem avoids_ahead : Avoids c (Reader.ahead reader) := by
  intro text found read
  simp only [Reader.ahead] at read
  split at read
  · obtain rfl := Except.ok.inj read
    exact FreeUpTo.refl text
  · exact absurd read (by simp)

theorem avoids_notAhead (label : String) : Avoids c (Reader.notAhead label reader) := by
  intro text found read
  simp only [Reader.notAhead] at read
  split at read
  · exact absurd read (by simp)
  · obtain rfl := Except.ok.inj read
    exact FreeUpTo.refl text

theorem avoids_silent (avoids : Avoids c reader) : Avoids c (Reader.silent reader) := by
  intro text found read
  simp only [Reader.silent] at read
  split at read
  · next here readInner =>
      obtain rfl := Except.ok.inj read
      exact avoids text here readInner
  · exact absurd read (by simp)

theorem avoids_named (name : String) (avoids : Avoids c reader) :
    Avoids c (Reader.named name reader) := by
  intro text found read
  simp only [Reader.named] at read
  split at read
  · next here readInner =>
      obtain rfl := Except.ok.inj read
      exact avoids text here readInner
  · split at read <;> exact absurd read (by simp)

end

/-! ## All patterns -/

variable {c : Char}

mutual

/-- A pattern reads no character that none of its words contains. -/
theorem avoids_reader (solid : Text.isBlank c = false) :
    ∀ pattern : Pattern, mayRead c pattern = false → Avoids c pattern.reader
  | .keyword _, absent => avoids_keyword solid _ (by simpa [mayRead] using absent)
  | .literal _, absent => avoids_literal solid _ (by simpa [mayRead] using absent)
  | .word _ _, absent => by
      obtain ⟨notOpening, notContinuing⟩ := Bool.or_eq_false_iff.1 absent
      exact avoids_word solid _ notOpening notContinuing
  | .seq parts, absent => avoids_sequence (avoids_readers solid parts absent)
  | .longest alternatives, absent => avoids_longest (avoids_readers solid alternatives absent) _
  | .first alternatives, absent => avoids_first (avoids_readers solid alternatives absent) _
  | .optional inner, absent => avoids_optional (avoids_reader solid inner absent)
  | .zeroOrMore inner, absent => avoids_zeroOrMore (avoids_reader solid inner absent)
  | .anyOrder group, absent => avoids_picks _ (avoids_members solid group absent)
  | .skipTo _, absent => absurd absent (by simp [mayRead])
  | .ahead _, _ => avoids_ahead
  | .notAhead _, _ => avoids_notAhead _
  | .windowEnd, _ => avoids_windowEnd solid _
  | .silent inner, absent => avoids_silent (avoids_reader solid inner absent)
  | .named name inner, absent => avoids_named name (avoids_reader solid inner absent)

theorem avoids_readers (solid : Text.isBlank c = false) :
    ∀ patterns : List Pattern, anyMayRead c patterns = false →
      ∀ reader ∈ readers patterns, Avoids c reader
  | [], _ => by simp [readers]
  | pattern :: others, absent => by
      obtain ⟨head, rest⟩ := Bool.or_eq_false_iff.1 absent
      intro reader member
      rcases List.mem_cons.1 member with rfl | inOthers
      · exact avoids_reader solid pattern head
      · exact avoids_readers solid others rest reader inOthers

theorem avoids_members (solid : Text.isBlank c = false) :
    ∀ group : List Pattern, anyMayRead c group = false →
      ∀ member ∈ memberReaders group, Avoids c member.reader
  | [], _ => by simp [memberReaders]
  | pattern :: others, absent => by
      obtain ⟨head, rest⟩ := Bool.or_eq_false_iff.1 absent
      have later := avoids_members solid others rest
      have here := avoids_reader solid pattern head
      intro member inGroup
      cases pattern with
      | optional inner =>
          rcases List.mem_cons.1 inGroup with rfl | inOthers
          · exact avoids_reader solid inner head
          · exact later member inOthers
      | _ =>
          rcases List.mem_cons.1 inGroup with rfl | inOthers
          · exact here
          · exact later member inOthers

end

/-! ## Closing literals -/

theorem sequence_concat (readers : List Reader) (last : Reader) (text : List Char) :
    Reader.sequence (readers ++ [last]) text =
      match Reader.sequence readers text with
      | .error stuck => .error stuck
      | .ok found =>
          match last found.rest with
          | .error stuck => .error stuck
          | .ok ending => .ok ⟨ending.rest, found.captures ++ ending.captures⟩ := by
  induction readers generalizing text with
  | nil =>
      simp only [List.nil_append, Reader.sequence]
      cases last text <;> simp
  | cons reader others inductionHypothesis =>
      simp only [List.cons_append, Reader.sequence]
      cases reader text with
      | error stuck => rfl
      | ok found =>
          dsimp only
          rw [inductionHypothesis]
          cases Reader.sequence others found.rest with
          | error stuck => rfl
          | ok middle =>
              dsimp only
              cases last middle.rest <;> simp

/-- The last part of a sequence goes on where the parts before it stop. -/
theorem sequence_concat_ok {readers : List Reader} {last : Reader} {text : List Char}
    {found : Reading} (read : Reader.sequence (readers ++ [last]) text = .ok found) :
    ∃ middle ending, Reader.sequence readers text = .ok middle ∧ last middle.rest = .ok ending ∧
      ending.rest = found.rest := by
  rw [sequence_concat] at read
  split at read
  · cases read
  · next middle readFront =>
      split at read
      · cases read
      · next ending readLast =>
          cases read
          exact ⟨middle, ending, readFront, readLast, rfl⟩

end GodotGraph.Pattern
