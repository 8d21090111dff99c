import GodotGraph.Proofs.Pattern.Reader
import GodotGraph.Proofs.Text.Squeeze

/-!
Contract: readings of texts that differ in their blanks only.

Owns:
- patterns whose words contain no blank;
- readings of a text and of the squeezed text, with one lemma for each way of composing.

A reading never ends inside a run of blanks, except where it started there. So the places that
a choice or a repetition compares are in the same order in both texts.
-/

set_option autoImplicit false

namespace GodotGraph.Pattern

open Text (Lands squeeze trimStart)

/-! ## Words without blanks -/

/-- No character that the class lists is a blank. -/
def CharClass.blankFree (family : CharClass) : Bool :=
  family.listed.all fun c => !Text.isBlank c

mutual

/-- No word of the pattern contains a blank. -/
def blankFree : Pattern → Bool
  | keyword text => text.toList.all fun c => !Text.isBlank c
  | literal text => text.toList.all fun c => !Text.isBlank c
  | word opens continues => opens.blankFree && continues.blankFree
  | seq parts => allBlankFree parts
  | longest alternatives => allBlankFree alternatives
  | first alternatives => allBlankFree alternatives
  | optional inner => blankFree inner
  | zeroOrMore inner => blankFree inner
  | anyOrder group => allBlankFree group
  | skipTo target => blankFree target
  | ahead inner => blankFree inner
  | notAhead inner => blankFree inner
  | windowEnd => true
  | silent inner => blankFree inner
  | named _ inner => blankFree inner

/-- No word of any of the patterns contains a blank. -/
def allBlankFree : List Pattern → Bool
  | [] => true
  | pattern :: others => blankFree pattern && allBlankFree others

end

/-- The code points of all blanks. -/
def blankCodes : List Nat :=
  List.range' 9 5 ++ [0x20, 0x85, 0xA0, 0x1680] ++ List.range' 0x2000 11 ++
    [0x2028, 0x2029, 0x202F, 0x205F, 0x3000]

theorem toNat_mem_blankCodes {c : Char} (blank : Text.isBlank c = true) :
    c.toNat ∈ blankCodes := by
  simp only [Text.isBlank, Bool.or_eq_true, Bool.and_eq_true, decide_eq_true_eq,
    beq_iff_eq] at blank
  simp only [blankCodes, List.mem_append, List.mem_range'_1, List.mem_cons, List.not_mem_nil]
  omega

/-- A fact about characters holds of all blanks if it holds of the listed ones. -/
theorem of_isBlank (fact : Char → Bool)
    (each : (blankCodes.all fun code => fact (Char.ofNat code)) = true) {c : Char}
    (blank : Text.isBlank c = true) : fact c = true := by
  have listed := List.all_eq_true.1 each c.toNat (toNat_mem_blankCodes blank)
  rwa [Char.ofNat_toNat] at listed

/-- The letters and digits of a class are no blanks, so only the listed characters matter. -/
theorem CharClass.blankFree_iff (family : CharClass) :
    family.blankFree = true ↔ ∀ c, Text.isBlank c = true → family.contains c = false := by
  rw [blankFree, List.all_eq_true]
  constructor
  · intro solid c blank
    have plain : (!c.isAlpha && !c.isUpper && !c.isDigit) = true :=
      of_isBlank (fun d => !d.isAlpha && !d.isUpper && !d.isDigit) (by decide +kernel) blank
    have absent : c ∉ family.listed := fun member => by simpa [blank] using solid c member
    simp only [Bool.and_eq_true, Bool.not_eq_true'] at plain
    simp [contains, plain, absent]
  · intro outside c member
    by_contra blank
    have absent := outside c (by simpa using blank)
    simp [contains, member] at absent

theorem solid_of_all {text : List Char} (all : (text.all fun c => !Text.isBlank c) = true) :
    ∀ c ∈ text, Text.isBlank c = false := by
  simpa using all

/-- No keyword goes on in a blank. -/
theorem continuesIdentifier_of_isBlank {c : Char} (blank : Text.isBlank c = true) :
    Text.continuesIdentifier c = false := by
  have stops := of_isBlank (fun d => !Text.continuesIdentifier d) (by decide +kernel) blank
  simpa using stops

theorem endsWord_squeeze (text : List Char) : endsWord (squeeze text) = endsWord text := by
  cases text with
  | nil => rfl
  | cons c rest =>
      cases blank : Text.isBlank c with
      | false => rw [Text.squeeze_cons_of_solid blank]; rfl
      | true =>
          have starts : Text.startsBlank (c :: rest) = true := blank
          rw [Text.squeeze_of_startsBlank starts]
          show (!Text.continuesIdentifier ' ') = !Text.continuesIdentifier c
          rw [continuesIdentifier_of_isBlank Text.isBlank_space, continuesIdentifier_of_isBlank blank]

/-! ## Readings of both texts -/

/-- The capture without the blanks in its value. -/
def Capture.bare (capture : Capture) : Capture :=
  ⟨capture.name, String.ofList (Text.bare capture.value.toList)⟩

/-- A reading of a text and one of the squeezed text: they end at the same place, outside the
runs of blanks, and have the same captures but for blanks. -/
structure Alike (text : List Char) (found squeezed : Reading) : Prop where
  lands : Lands text found.rest
  rest : squeezed.rest = squeeze found.rest
  captures : squeezed.captures.map Capture.bare = found.captures.map Capture.bare

/-- Outcomes on a text and on the squeezed text: readings that are alike, or failures. -/
def Agree (text : List Char) (outcome squeezed : Except Stuck Reading) : Prop :=
  (∃ found last, outcome = .ok found ∧ squeezed = .ok last ∧ Alike text found last) ∨
    ∃ stuck other, outcome = .error stuck ∧ squeezed = .error other

/-- The reader has the same outcome on every text and on the squeezed text, but for blanks. -/
def IgnoresSpacing (reader : Reader) : Prop :=
  ∀ text, Agree text (reader text) (reader (squeeze text))

namespace Agree

variable {text : List Char}

theorem ok {found last : Reading} (alike : Alike text found last) :
    Agree text (.ok found) (.ok last) :=
  Or.inl ⟨found, last, rfl, rfl, alike⟩

theorem error (stuck other : Stuck) : Agree text (.error stuck) (.error other) :=
  Or.inr ⟨stuck, other, rfl, rfl⟩

/-- Readings without captures. -/
theorem plain {rest : List Char} (lands : Lands text rest) :
    Agree text (.ok ⟨rest, []⟩) (.ok ⟨squeeze rest, []⟩) :=
  ok ⟨lands, rfl, rfl⟩

end Agree

namespace Alike

variable {text : List Char} {found squeezed : Reading}

/-- One reading after another. -/
theorem append (alike : Alike text found squeezed) {last squeezedLast : Reading}
    (later : Alike found.rest last squeezedLast) :
    Alike text ⟨last.rest, found.captures ++ last.captures⟩
      ⟨squeezedLast.rest, squeezed.captures ++ squeezedLast.captures⟩ where
  lands := alike.lands.trans later.lands
  rest := later.rest
  captures := by rw [List.map_append, List.map_append, alike.captures, later.captures]

/-- What comes after a reading decides the outcome. -/
theorem andThen (alike : Alike text found squeezed) {outcome other : Except Stuck Reading} :
    Agree found.rest outcome other → Agree text
      (match outcome with
        | .error stuck => .error stuck
        | .ok last => .ok ⟨last.rest, found.captures ++ last.captures⟩)
      (match other with
        | .error stuck => .error stuck
        | .ok last => .ok ⟨last.rest, squeezed.captures ++ last.captures⟩) := by
  rintro (⟨last, squeezedLast, rfl, rfl, alikeLast⟩ | ⟨stuck, otherStuck, rfl, rfl⟩)
  · exact .ok (alike.append alikeLast)
  · exact .error _ _

end Alike

/-! ## Single words -/

section

variable {expected : List Char}

theorem lands_drop (solid : ∀ c ∈ expected, Text.isBlank c = false) {text : List Char}
    (starts : expected.isPrefixOf (trimStart text) = true) :
    Lands text ((trimStart text).drop expected.length) ∧
      (squeeze (trimStart text)).drop expected.length =
        squeeze ((trimStart text).drop expected.length) := by
  obtain ⟨rest, shape⟩ := List.isPrefixOf_iff_prefix.1 starts
  rw [← shape, List.drop_left, Text.squeeze_append_of_solid solid, List.drop_left]
  refine ⟨(Lands.trimStart text).trans ?_, rfl⟩
  rw [← shape]
  exact Lands.append solid rest

theorem ignoresSpacing_keyword (label : String) (solid : ∀ c ∈ expected, Text.isBlank c = false) :
    IgnoresSpacing (Reader.keyword label expected) := by
  intro text
  simp only [Reader.keyword, Text.trimStart_squeeze, Text.isPrefixOf_squeeze solid]
  cases starts : expected.isPrefixOf (trimStart text) with
  | false => exact .error _ _
  | true =>
      obtain ⟨lands, dropped⟩ := lands_drop solid starts
      rw [dropped, endsWord_squeeze]
      cases endsWord ((trimStart text).drop expected.length) with
      | false => exact .error _ _
      | true => exact .plain lands

theorem ignoresSpacing_literal (label : String) (solid : ∀ c ∈ expected, Text.isBlank c = false) :
    IgnoresSpacing (Reader.literal label expected) := by
  intro text
  simp only [Reader.literal, Text.trimStart_squeeze, Text.isPrefixOf_squeeze solid]
  cases starts : expected.isPrefixOf (trimStart text) with
  | false => exact .error _ _
  | true =>
      obtain ⟨lands, dropped⟩ := lands_drop solid starts
      rw [dropped]
      exact .plain lands

end

theorem ignoresSpacing_word (label : String) {opens continues : Char → Bool}
    (solid : ∀ c, Text.isBlank c = true → continues c = false) :
    IgnoresSpacing (Reader.word label opens continues) := by
  intro text
  have lands := Lands.trimStart text
  simp only [Reader.word, Text.trimStart_squeeze]
  cases shape : trimStart text with
  | nil => exact .error _ _
  | cons c rest =>
      have solidHead : Text.isBlank c = false := Text.trimStart_head shape
      rw [Text.squeeze_cons_of_solid solidHead]
      dsimp only
      cases opens c with
      | false => exact .error _ _
      | true =>
          have solidWord : ∀ d ∈ c :: rest.takeWhile continues, Text.isBlank d = false := by
            intro d member
            rcases List.mem_cons.1 member with rfl | inRun
            · exact solidHead
            · by_contra blank
              have continued := List.mem_takeWhile_imp inRun
              rw [solid d (by simpa using blank)] at continued
              cases continued
          have run := Lands.append solidWord (rest.dropWhile continues)
          rw [List.cons_append, List.takeWhile_append_dropWhile, ← shape] at run
          rw [Text.dropWhile_squeeze solid]
          exact .plain (lands.trans run)

theorem ignoresSpacing_windowEnd (label : String) : IgnoresSpacing (Reader.windowEnd label) := by
  intro text
  have lands := Lands.trimStart text
  simp only [Reader.windowEnd, Text.trimStart_squeeze]
  cases shape : trimStart text with
  | nil =>
      rw [shape] at lands
      exact .plain lands
  | cons c rest =>
      have solid : Text.isBlank c = false := Text.trimStart_head shape
      rw [Text.squeeze_cons_of_solid solid]
      exact .error _ _

/-! ## Sequences and choices -/

theorem ignoresSpacing_sequence {readers : List Reader}
    (each : ∀ reader ∈ readers, IgnoresSpacing reader) :
    IgnoresSpacing (Reader.sequence readers) := by
  induction readers with
  | nil => exact fun text => .plain (Lands.refl text)
  | cons reader others inductionHypothesis =>
      intro text
      simp only [Reader.sequence]
      rcases each reader List.mem_cons_self text with
        ⟨found, squeezed, read, readSqueezed, alike⟩ | ⟨stuck, other, read, readSqueezed⟩
      · rw [read, readSqueezed]
        dsimp only
        rw [alike.rest]
        exact alike.andThen (inductionHypothesis
          (fun other member => each other (List.mem_cons_of_mem _ member)) found.rest)
      · rw [read, readSqueezed]
        exact .error _ _

/-- Failures differ between the texts, and no success depends on them. -/
theorem firstOf_squeeze {readers : List Reader} (label : String) (text : List Char)
    (each : ∀ reader ∈ readers, IgnoresSpacing reader) (failure other : Option Stuck) :
    Agree text (Reader.firstOf label text readers failure)
      (Reader.firstOf label (squeeze text) readers other) := by
  induction readers generalizing failure other with
  | nil => cases failure <;> cases other <;> exact .error _ _
  | cons reader others inductionHypothesis =>
      simp only [Reader.firstOf]
      rcases each reader List.mem_cons_self text with
        ⟨found, squeezed, read, readSqueezed, alike⟩ | ⟨stuck, otherStuck, read, readSqueezed⟩
      · rw [read, readSqueezed]
        exact .ok alike
      · rw [read, readSqueezed]
        exact inductionHypothesis
          (fun next member => each next (List.mem_cons_of_mem _ member)) _ _

theorem ignoresSpacing_first {readers : List Reader} (label : String)
    (each : ∀ reader ∈ readers, IgnoresSpacing reader) :
    IgnoresSpacing (Reader.first label readers) :=
  fun text => firstOf_squeeze label text each none none

/-- The best readings so far of both texts. Ends compare alike, so the best reading of one text
is the counterpart of the best of the other. -/
theorem longestOf_squeeze {readers : List Reader} (label : String) (text : List Char)
    (each : ∀ reader ∈ readers, IgnoresSpacing reader) {best squeezedBest : Option Reading}
    (bests : Option.Rel (Alike text) best squeezedBest) (failure other : Option Stuck) :
    Agree text (Reader.longestOf label text readers best failure)
      (Reader.longestOf label (squeeze text) readers squeezedBest other) := by
  induction readers generalizing best squeezedBest failure other with
  | nil =>
      cases bests with
      | none => cases failure <;> cases other <;> exact .error _ _
      | some alike => exact .ok alike
  | cons reader others inductionHypothesis =>
      have later :=
        @inductionHypothesis fun next member => each next (List.mem_cons_of_mem _ member)
      simp only [Reader.longestOf]
      rcases each reader List.mem_cons_self text with
        ⟨found, squeezed, read, readSqueezed, alike⟩ | ⟨stuck, otherStuck, read, readSqueezed⟩
      · rw [read, readSqueezed]
        refine later ?_ _ _
        cases bests with
        | none => exact .some alike
        | @some reached squeezedReached alikeBest =>
            have further := alikeBest.lands.length_squeeze_lt_iff alike.lands
            rw [← alike.rest, ← alikeBest.rest] at further
            simp only [further, decide_eq_true_eq]
            split
            · exact .some alike
            · exact .some alikeBest
      · rw [read, readSqueezed]
        exact later bests _ _

theorem ignoresSpacing_longest {readers : List Reader} (label : String)
    (each : ∀ reader ∈ readers, IgnoresSpacing reader) :
    IgnoresSpacing (Reader.longest label readers) :=
  fun text => longestOf_squeeze label text each .none none none

/-! ## Repetitions and groups -/

section

variable {reader : Reader}

theorem ignoresSpacing_optional (ignores : IgnoresSpacing reader) :
    IgnoresSpacing (Reader.optional reader) := by
  intro text
  simp only [Reader.optional]
  rcases ignores text with
    ⟨found, squeezed, read, readSqueezed, alike⟩ | ⟨stuck, other, read, readSqueezed⟩
  · rw [read, readSqueezed]
    exact .ok alike
  · rw [read, readSqueezed]
    exact .plain (Lands.refl text)

/-- A round reads something of the text exactly if it does of the squeezed text, so both go
through the same rounds. Enough rounds are allowed for each. -/
theorem rounds_squeeze (ignores : IgnoresSpacing reader) {count other : Nat} {text : List Char}
    (enough : text.length < count) (enoughOther : (squeeze text).length < other) :
    Alike text (Reader.rounds reader count text) (Reader.rounds reader other (squeeze text)) := by
  induction count generalizing other text with
  | zero => exact absurd enough (Nat.not_lt_zero _)
  | succ count inductionHypothesis =>
      obtain ⟨other, rfl⟩ := Nat.exists_eq_add_one_of_ne_zero (Nat.ne_zero_of_lt enoughOther)
      simp only [Reader.rounds]
      rcases ignores text with
        ⟨found, squeezed, read, readSqueezed, alike⟩ | ⟨stuck, otherStuck, read, readSqueezed⟩
      · have progress := (Lands.refl text).length_squeeze_lt_iff alike.lands
        rw [← alike.rest] at progress
        rw [read, readSqueezed]
        dsimp only
        by_cases reads : found.rest.length < text.length
        · have readsSqueezed := progress.2 reads
          rw [if_pos reads, if_pos readsSqueezed]
          refine alike.append ?_
          rw [alike.rest] at readsSqueezed ⊢
          exact inductionHypothesis (by omega) (by omega)
        · rw [if_neg reads, if_neg (mt progress.1 reads)]
          exact ⟨Lands.refl text, rfl, alike.captures⟩
      · rw [read, readSqueezed]
        exact ⟨Lands.refl text, rfl, rfl⟩

theorem ignoresSpacing_zeroOrMore (ignores : IgnoresSpacing reader) :
    IgnoresSpacing (Reader.zeroOrMore reader) :=
  fun _ => .ok (rounds_squeeze ignores (Nat.lt_succ_self _) (Nat.lt_succ_self _))

end

section

variable {group : List Reader.Member}

/-- The same member is picked from both texts, or none. -/
theorem pick_squeeze (each : ∀ member ∈ group, IgnoresSpacing member.reader) (text : List Char) :
    (∃ found squeezed left, Reader.pick text group = some (found, left) ∧
      Reader.pick (squeeze text) group = some (squeezed, left) ∧ Alike text found squeezed ∧
        ∀ member ∈ left, IgnoresSpacing member.reader) ∨
      Reader.pick text group = none ∧ Reader.pick (squeeze text) group = none := by
  induction group with
  | nil => exact Or.inr ⟨rfl, rfl⟩
  | cons member others inductionHypothesis =>
      have eachOther : ∀ other ∈ others, IgnoresSpacing other.reader :=
        fun other isOther => each other (List.mem_cons_of_mem _ isOther)
      have ignores := each member List.mem_cons_self
      simp only [Reader.pick]
      rcases ignores text with
        ⟨found, squeezed, read, readSqueezed, alike⟩ | ⟨stuck, other, read, readSqueezed⟩
      · rw [read, readSqueezed]
        exact Or.inl ⟨found, squeezed, others, rfl, rfl, alike, eachOther⟩
      · rw [read, readSqueezed]
        dsimp only
        rcases inductionHypothesis eachOther with
          ⟨found, squeezed, left, picked, pickedSqueezed, alike, eachLeft⟩ | ⟨none, noneSqueezed⟩
        · rw [picked, pickedSqueezed]
          refine Or.inl ⟨found, squeezed, member :: left, rfl, rfl, alike, ?_⟩
          intro next isNext
          rcases List.mem_cons.1 isNext with rfl | isLeft
          · exact ignores
          · exact eachLeft next isLeft
        · rw [none, noneSqueezed]
          exact Or.inr ⟨rfl, rfl⟩

theorem ignoresSpacing_settle (left : List Reader.Member) :
    IgnoresSpacing (Reader.picks.settle left) := by
  intro text
  unfold Reader.picks.settle
  cases left.find? fun member => member.required with
  | some missing => exact .error _ _
  | none => exact .plain (Lands.refl text)

theorem ignoresSpacing_picks (count : Nat)
    (each : ∀ member ∈ group, IgnoresSpacing member.reader) :
    IgnoresSpacing (Reader.picks count group) := by
  induction count generalizing group with
  | zero =>
      intro text
      simp only [Reader.picks]
      exact ignoresSpacing_settle group text
  | succ count inductionHypothesis =>
      intro text
      simp only [Reader.picks]
      rcases pick_squeeze each text with
        ⟨found, squeezed, left, picked, pickedSqueezed, alike, eachLeft⟩ | ⟨none, noneSqueezed⟩
      · rw [picked, pickedSqueezed]
        dsimp only
        rw [alike.rest]
        exact alike.andThen (inductionHypothesis eachLeft found.rest)
      · rw [none, noneSqueezed]
        exact ignoresSpacing_settle group text

theorem ignoresSpacing_anyOrder (each : ∀ member ∈ group, IgnoresSpacing member.reader) :
    IgnoresSpacing (Reader.anyOrder group) :=
  ignoresSpacing_picks _ each

end

/-! ## Skipping and looking ahead -/

section

variable {reader : Reader}

/-- A search that stops at a blank may stop at another blank of the same run in the squeezed
text. After the run it is at the same place. -/
theorem seek_squeeze (ignores : IgnoresSpacing reader) (text : List Char) :
    (∃ found squeezed, Reader.seek reader text = some found ∧
      Reader.seek reader (squeeze text) = some squeezed ∧ found <:+ text ∧
        trimStart squeezed = squeeze (trimStart found)) ∨
      Reader.seek reader text = none ∧ Reader.seek reader (squeeze text) = none := by
  induction text with
  | nil => cases read : reader [] <;> simp [Reader.seek, squeeze, trimStart, read]
  | cons c rest inductionHypothesis =>
      rcases ignores (c :: rest) with
        ⟨found, squeezed, read, readSqueezed, _⟩ | ⟨stuck, other, read, readSqueezed⟩
      · exact Or.inl ⟨_, _, seek_of_ok read, seek_of_ok readSqueezed, List.suffix_refl _,
          Text.trimStart_squeeze _⟩
      · have passes : Reader.seek reader (squeeze (c :: rest)) =
            Reader.seek reader (squeeze rest) := by
          cases blank : Text.isBlank c with
          | false =>
              rw [Text.squeeze_cons_of_solid blank] at readSqueezed ⊢
              exact seek_cons_of_error readSqueezed
          | true =>
              cases next : Text.startsBlank rest with
              | true => rw [squeeze, if_pos blank, if_pos next]
              | false =>
                  rw [squeeze, if_pos blank, next] at readSqueezed ⊢
                  exact seek_cons_of_error readSqueezed
        rw [seek_cons_of_error read, passes]
        rcases inductionHypothesis with
          ⟨found, squeezed, reached, reachedSqueezed, ends, same⟩ | none
        · exact Or.inl ⟨found, squeezed, reached, reachedSqueezed,
            ends.trans (List.suffix_cons c rest), same⟩
        · exact Or.inr none

theorem ignoresSpacing_skipTo (label : String) (ignores : IgnoresSpacing reader) :
    IgnoresSpacing (Reader.skipTo label reader) := by
  intro text
  simp only [Reader.skipTo]
  rcases seek_squeeze ignores text with
    ⟨found, squeezed, reached, reachedSqueezed, ends, same⟩ | ⟨none, noneSqueezed⟩
  · rw [reached, reachedSqueezed]
    dsimp only
    rw [same]
    exact .plain (Lands.of_suffix ((Text.trimStart_suffix found).trans ends)
      (Text.startsBlank_trimStart found))
  · rw [none, noneSqueezed]
    exact .error _ _

theorem ignoresSpacing_ahead (ignores : IgnoresSpacing reader) :
    IgnoresSpacing (Reader.ahead reader) := by
  intro text
  simp only [Reader.ahead]
  rcases ignores text with
    ⟨found, squeezed, read, readSqueezed, _⟩ | ⟨stuck, other, read, readSqueezed⟩
  · rw [read, readSqueezed]
    exact .plain (Lands.refl text)
  · rw [read, readSqueezed]
    exact .error _ _

theorem ignoresSpacing_notAhead (label : String) (ignores : IgnoresSpacing reader) :
    IgnoresSpacing (Reader.notAhead label reader) := by
  intro text
  simp only [Reader.notAhead]
  rcases ignores text with
    ⟨found, squeezed, read, readSqueezed, _⟩ | ⟨stuck, other, read, readSqueezed⟩
  · rw [read, readSqueezed]
    exact .error _ _
  · rw [read, readSqueezed]
    exact .plain (Lands.refl text)

/-! ## Captures -/

theorem ignoresSpacing_silent (ignores : IgnoresSpacing reader) :
    IgnoresSpacing (Reader.silent reader) := by
  intro text
  simp only [Reader.silent]
  rcases ignores text with
    ⟨found, squeezed, read, readSqueezed, alike⟩ | ⟨stuck, other, read, readSqueezed⟩
  · rw [read, readSqueezed]
    exact .ok ⟨alike.lands, alike.rest, rfl⟩
  · rw [read, readSqueezed]
    exact .error _ _

/-- What a reader reads is the same but for blanks. Where it ends before the first word, nothing
is read of either text. -/
theorem bare_between {text rest : List Char} (lands : Lands text rest) :
    Text.bare (Reader.between (trimStart (squeeze text)) (squeeze rest)) =
      Text.bare (Reader.between (trimStart text) rest) := by
  have start := Lands.trimStart text
  rw [Text.trimStart_squeeze]
  unfold Reader.between
  rcases Nat.lt_or_ge (trimStart text).length rest.length with earlier | later
  · have earlierSqueezed := lands.length_squeeze_lt start earlier
    rw [Nat.sub_eq_zero_of_le (Nat.le_of_lt earlier),
      Nat.sub_eq_zero_of_le (Nat.le_of_lt earlierSqueezed)]
    rfl
  · obtain ⟨read, shape, apart⟩ := start.between lands later
    rw [shape, Text.squeeze_append apart]
    simp [Text.bare_squeeze]

theorem ignoresSpacing_named (name : String) (ignores : IgnoresSpacing reader) :
    IgnoresSpacing (Reader.named name reader) := by
  intro text
  simp only [Reader.named]
  rcases ignores text with
    ⟨found, squeezed, read, readSqueezed, alike⟩ | ⟨stuck, other, read, readSqueezed⟩
  · have value := bare_between alike.lands
    rw [read, readSqueezed]
    refine .ok ⟨alike.lands, alike.rest, ?_⟩
    rw [List.map_append, List.map_append, alike.captures]
    simp [Capture.bare, Text.bare_trim, alike.rest, value]
  · rw [read, readSqueezed]
    dsimp only
    rw [← apply_ite Except.error, ← apply_ite Except.error]
    exact .error _ _

end

/-! ## Every pattern -/

mutual

theorem ignoresSpacing_reader : ∀ pattern : Pattern, pattern.blankFree = true →
    IgnoresSpacing pattern.reader
  | .keyword _, free => ignoresSpacing_keyword _ (solid_of_all free)
  | .literal _, free => ignoresSpacing_literal _ (solid_of_all free)
  | .word _ continues, free => by
      simp only [blankFree, Bool.and_eq_true] at free
      exact ignoresSpacing_word _ (continues.blankFree_iff.1 free.2)
  | .seq parts, free => ignoresSpacing_sequence (ignoresSpacing_readers parts free)
  | .longest alternatives, free =>
      ignoresSpacing_longest _ (ignoresSpacing_readers alternatives free)
  | .first alternatives, free => ignoresSpacing_first _ (ignoresSpacing_readers alternatives free)
  | .optional inner, free => ignoresSpacing_optional (ignoresSpacing_reader inner free)
  | .zeroOrMore inner, free => ignoresSpacing_zeroOrMore (ignoresSpacing_reader inner free)
  | .anyOrder group, free => ignoresSpacing_anyOrder (ignoresSpacing_members group free)
  | .skipTo target, free => ignoresSpacing_skipTo _ (ignoresSpacing_reader target free)
  | .ahead inner, free => ignoresSpacing_ahead (ignoresSpacing_reader inner free)
  | .notAhead inner, free => ignoresSpacing_notAhead _ (ignoresSpacing_reader inner free)
  | .windowEnd, _ => ignoresSpacing_windowEnd _
  | .silent inner, free => ignoresSpacing_silent (ignoresSpacing_reader inner free)
  | .named name inner, free => ignoresSpacing_named name (ignoresSpacing_reader inner free)

theorem ignoresSpacing_readers : ∀ patterns : List Pattern, allBlankFree patterns = true →
    ∀ reader ∈ readers patterns, IgnoresSpacing reader
  | [], _ => by simp [readers]
  | pattern :: others, free => by
      simp only [allBlankFree, Bool.and_eq_true] at free
      intro reader member
      rcases List.mem_cons.1 member with rfl | later
      · exact ignoresSpacing_reader pattern free.1
      · exact ignoresSpacing_readers others free.2 reader later

theorem ignoresSpacing_members : ∀ group : List Pattern, allBlankFree group = true →
    ∀ member ∈ memberReaders group, IgnoresSpacing member.reader
  | [], _ => by simp [memberReaders]
  | pattern :: others, free => by
      simp only [allBlankFree, Bool.and_eq_true] at free
      have ignores := ignoresSpacing_reader pattern free.1
      have later := ignoresSpacing_members others free.2
      intro member inside
      cases pattern with
      | optional inner =>
          rcases List.mem_cons.1 inside with rfl | isLater
          · exact ignoresSpacing_reader inner free.1
          · exact later member isLater
      | _ =>
          rcases List.mem_cons.1 inside with rfl | isLater
          · exact ignores
          · exact later member isLater

end

end GodotGraph.Pattern
