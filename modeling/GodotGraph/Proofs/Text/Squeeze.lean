import GodotGraph.Proofs.Pattern.Position
import Mathlib.Data.List.TakeWhile

/-!
Contract: texts that differ in their blanks only.

Owns:
- the squeezed text, in which every run of blanks is one space;
- the places of a text that do not stand inside a run of blanks;
- what the squeezed text starts with.

A place inside a run of blanks has no counterpart in the squeezed text. Every other place has
one, and the order of the places is the same in both texts.
-/

set_option autoImplicit false

namespace GodotGraph.Text

/-- The text starts with a blank. -/
def startsBlank : List Char → Bool
  | [] => false
  | c :: _ => isBlank c

/-- The text with every run of blanks replaced by one space. -/
def squeeze : List Char → List Char
  | [] => []
  | c :: rest =>
      if isBlank c then if startsBlank rest then squeeze rest else ' ' :: squeeze rest
      else c :: squeeze rest

/-- The text without its blanks. -/
def bare (text : List Char) : List Char :=
  text.filter fun c => !isBlank c

/-! ## Squeezing -/

@[simp] theorem startsBlank_cons (c : Char) (rest : List Char) :
    startsBlank (c :: rest) = isBlank c :=
  rfl

@[simp] theorem isBlank_space : isBlank ' ' = true := by decide

theorem squeeze_cons_of_solid {c : Char} (solid : isBlank c = false) (rest : List Char) :
    squeeze (c :: rest) = c :: squeeze rest := by
  simp [squeeze, solid]

theorem squeeze_append_of_solid {word : List Char} (solid : ∀ c ∈ word, isBlank c = false)
    (rest : List Char) : squeeze (word ++ rest) = word ++ squeeze rest := by
  induction word with
  | nil => rfl
  | cons c others inductionHypothesis =>
      rw [List.cons_append, squeeze_cons_of_solid (solid c List.mem_cons_self),
        inductionHypothesis fun d member => solid d (List.mem_cons_of_mem c member),
        List.cons_append]

theorem startsBlank_squeeze (text : List Char) : startsBlank (squeeze text) = startsBlank text := by
  induction text with
  | nil => rfl
  | cons c rest inductionHypothesis =>
      cases blank : isBlank c with
      | false => simp [squeeze, blank]
      | true =>
          cases next : startsBlank rest with
          | false => simp [squeeze, blank, next]
          | true => simp [squeeze, blank, next, inductionHypothesis]

theorem trimStart_cons_of_blank {c : Char} (blank : isBlank c = true) (rest : List Char) :
    trimStart (c :: rest) = trimStart rest := by
  simp [trimStart, blank]

theorem trimStart_squeeze (text : List Char) :
    trimStart (squeeze text) = squeeze (trimStart text) := by
  induction text with
  | nil => rfl
  | cons c rest inductionHypothesis =>
      cases blank : isBlank c with
      | false =>
          rw [squeeze_cons_of_solid blank, trimStart_cons_of_solid blank,
            trimStart_cons_of_solid blank, squeeze_cons_of_solid blank]
      | true =>
          rw [trimStart_cons_of_blank blank, ← inductionHypothesis]
          cases next : startsBlank rest with
          | false => simp [squeeze, blank, next, trimStart_cons_of_blank isBlank_space]
          | true => simp [squeeze, blank, next]

theorem startsBlank_trimStart (text : List Char) : startsBlank (trimStart text) = false := by
  cases shape : trimStart text with
  | nil => rfl
  | cons c rest => exact trimStart_head shape

theorem trimStart_of_startsBlank {text : List Char} (stops : startsBlank text = false) :
    trimStart text = text := by
  cases text with
  | nil => rfl
  | cons c rest => exact trimStart_cons_of_solid stops

/-- A run of blanks in front of a text is squeezed to one space. -/
theorem squeeze_of_startsBlank {text : List Char} (starts : startsBlank text = true) :
    squeeze text = ' ' :: squeeze (trimStart text) := by
  induction text with
  | nil => simp [startsBlank] at starts
  | cons c rest inductionHypothesis =>
      have blank : isBlank c = true := starts
      rw [trimStart_cons_of_blank blank]
      cases next : startsBlank rest with
      | true => simp [squeeze, blank, next, inductionHypothesis next]
      | false => simp [squeeze, blank, next, trimStart_of_startsBlank next]

theorem squeeze_eq_nil_iff {text : List Char} : squeeze text = [] ↔ text = [] := by
  constructor
  · intro empty
    have starts := startsBlank_squeeze text
    rw [empty] at starts
    cases text with
    | nil => rfl
    | cons c rest => simp [squeeze_cons_of_solid starts.symm] at empty
  · rintro rfl
    rfl

/-! ## Blanks left out -/

theorem bare_append (first rest : List Char) : bare (first ++ rest) = bare first ++ bare rest :=
  List.filter_append first rest

theorem bare_of_blank {blanks : List Char} (blank : ∀ c ∈ blanks, isBlank c = true) :
    bare blanks = [] := by
  simpa [bare, List.filter_eq_nil_iff] using blank

theorem bare_squeeze (text : List Char) : bare (squeeze text) = bare text := by
  induction text with
  | nil => rfl
  | cons c rest inductionHypothesis =>
      unfold bare at inductionHypothesis ⊢
      cases blank : isBlank c with
      | false => simp [squeeze, blank, inductionHypothesis]
      | true =>
          cases next : startsBlank rest with
          | false => simp [squeeze, blank, next, inductionHypothesis]
          | true => simp [squeeze, blank, next, inductionHypothesis]

theorem bare_trimStart (text : List Char) : bare (trimStart text) = bare text := by
  obtain ⟨blanks, blank, shape⟩ := trimStart_append text
  conv_rhs => rw [shape, bare_append, bare_of_blank blank, List.nil_append]

theorem bare_trim (text : List Char) : bare (trim text) = bare text := by
  have reversed : ∀ letters : List Char, bare letters.reverse = (bare letters).reverse :=
    fun letters => List.filter_reverse
  have back : trimEnd (trimStart text) = (trimStart (trimStart text).reverse).reverse := rfl
  rw [trim, back, reversed, bare_trimStart, reversed, List.reverse_reverse, bare_trimStart]

/-! ## Places outside runs of blanks -/

/-- No run of blanks goes on from the first text into the second. -/
def Apart (read rest : List Char) : Prop :=
  startsBlank rest = true → ∀ c ∈ read.getLast?, isBlank c = false

theorem squeeze_append {read rest : List Char} (apart : Apart read rest) :
    squeeze (read ++ rest) = squeeze read ++ squeeze rest := by
  induction read with
  | nil => rfl
  | cons c others inductionHypothesis =>
      cases blank : isBlank c with
      | false =>
          have apartOthers : Apart others rest := by
            intro starts
            cases others with
            | nil => simp
            | cons d more => simpa using apart starts
          rw [List.cons_append, squeeze_cons_of_solid blank, squeeze_cons_of_solid blank,
            inductionHypothesis apartOthers, List.cons_append]
      | true =>
          cases others with
          | nil =>
              have stops : startsBlank rest = false := by
                by_contra starts
                have solid := apart (by simpa using starts) c rfl
                simp [blank] at solid
              have alone : startsBlank [] = false := rfl
              simp [squeeze, blank, stops, alone]
          | cons d more =>
              have apartOthers : Apart (d :: more) rest := fun starts => by simpa using apart starts
              have next : startsBlank (d :: more ++ rest) = startsBlank (d :: more) := rfl
              rw [List.cons_append, squeeze, squeeze, next, inductionHypothesis apartOthers]
              cases startsBlank (d :: more) <;> simp [blank]

/-- The rest is what is left of the text at its start or at a place outside its runs of blanks. -/
def Lands (text rest : List Char) : Prop :=
  ∃ read, text = read ++ rest ∧ Apart read rest

namespace Lands

theorem refl (text : List Char) : Lands text text :=
  ⟨[], rfl, fun _ => by simp⟩

theorem trans {text middle rest : List Char} (first : Lands text middle)
    (second : Lands middle rest) : Lands text rest := by
  obtain ⟨front, rfl, apartFront⟩ := first
  obtain ⟨back, rfl, apartBack⟩ := second
  refine ⟨front ++ back, by simp, ?_⟩
  intro starts
  cases back with
  | nil => simpa using apartFront starts
  | cons c more => simpa using apartBack starts

theorem of_suffix {text rest : List Char} (ends : rest <:+ text)
    (solid : startsBlank rest = false) : Lands text rest := by
  obtain ⟨read, shape⟩ := ends
  refine ⟨read, shape.symm, ?_⟩
  intro starts
  rw [solid] at starts
  cases starts

theorem trimStart (text : List Char) : Lands text (trimStart text) :=
  of_suffix (trimStart_suffix text) (startsBlank_trimStart text)

/-- Reading characters other than blanks never stops inside a run of blanks. -/
theorem append {word : List Char} (solid : ∀ c ∈ word, isBlank c = false) (rest : List Char) :
    Lands (word ++ rest) rest :=
  ⟨word, rfl, fun _ c last => solid c (List.mem_of_getLast? last)⟩

theorem suffix {text rest : List Char} (lands : Lands text rest) : rest <:+ text := by
  obtain ⟨read, shape, _⟩ := lands
  exact ⟨read, shape.symm⟩

section

variable {text left right : List Char}

/-- The later one of two places is outside the runs of blanks also from the earlier one. -/
theorem between (landsLeft : Lands text left) (landsRight : Lands text right)
    (later : right.length ≤ left.length) : Lands left right := by
  obtain ⟨middle, rfl⟩ := List.suffix_of_suffix_length_le landsRight.suffix landsLeft.suffix later
  obtain ⟨read, rfl, _⟩ := landsLeft
  obtain ⟨longer, shape, apart⟩ := landsRight
  rw [← List.append_assoc, List.append_cancel_right_eq] at shape
  refine ⟨middle, rfl, ?_⟩
  intro starts c last
  refine apart starts c ?_
  rw [← shape, List.getLast?_append, last]
  rfl

theorem length_squeeze_lt (landsLeft : Lands text left) (landsRight : Lands text right)
    (later : right.length < left.length) : (squeeze right).length < (squeeze left).length := by
  obtain ⟨middle, rfl, apart⟩ := between landsLeft landsRight (Nat.le_of_lt later)
  have filled : squeeze middle ≠ [] := by
    intro empty
    rw [squeeze_eq_nil_iff.1 empty] at later
    simp at later
  have longer := List.length_pos_iff.2 filled
  rw [squeeze_append apart, List.length_append]
  omega

/-- Of two places outside the runs of blanks the same one is further on in the squeezed text. -/
theorem length_squeeze_lt_iff (landsLeft : Lands text left) (landsRight : Lands text right) :
    (squeeze right).length < (squeeze left).length ↔ right.length < left.length := by
  constructor
  · intro less
    by_contra notLater
    rcases Nat.lt_or_eq_of_le (Nat.not_lt.1 notLater) with earlier | equal
    · have := length_squeeze_lt landsRight landsLeft earlier
      omega
    · have same : left = right :=
        (List.suffix_of_suffix_length_le landsLeft.suffix landsRight.suffix
          (Nat.le_of_eq equal)).eq_of_length equal
      rw [same] at less
      omega
  · exact length_squeeze_lt landsLeft landsRight

end

end Lands

/-! ## Words of a squeezed text -/

/-- A squeezed text starts with the same words as the text. -/
theorem exists_of_squeeze_eq_append {word text rest : List Char}
    (solid : ∀ c ∈ word, isBlank c = false) (shape : squeeze text = word ++ rest) :
    ∃ left, text = word ++ left ∧ squeeze left = rest := by
  induction word generalizing text with
  | nil => exact ⟨text, rfl, shape⟩
  | cons c others inductionHypothesis =>
      have solidHead : isBlank c = false := solid c List.mem_cons_self
      have starts := startsBlank_squeeze text
      rw [shape] at starts
      cases text with
      | nil => simp [squeeze] at shape
      | cons d more =>
          have solidFirst : isBlank d = false := starts.symm.trans solidHead
          rw [squeeze_cons_of_solid solidFirst, List.cons_append, List.cons.injEq] at shape
          obtain ⟨rfl, shapeMore⟩ := shape
          obtain ⟨left, rfl, squeezed⟩ := inductionHypothesis
            (fun e member => solid e (List.mem_cons_of_mem d member)) shapeMore
          exact ⟨left, rfl, squeezed⟩

theorem isPrefixOf_squeeze {word : List Char} (solid : ∀ c ∈ word, isBlank c = false)
    (text : List Char) : word.isPrefixOf (squeeze text) = word.isPrefixOf text := by
  rw [Bool.eq_iff_iff, List.isPrefixOf_iff_prefix, List.isPrefixOf_iff_prefix]
  constructor
  · rintro ⟨rest, shape⟩
    obtain ⟨left, rfl, _⟩ := exists_of_squeeze_eq_append solid shape.symm
    exact List.prefix_append _ _
  · rintro ⟨rest, rfl⟩
    rw [squeeze_append_of_solid solid]
    exact List.prefix_append _ _

theorem dropWhile_squeeze {wanted : Char → Bool}
    (unwanted : ∀ c, isBlank c = true → wanted c = false) (text : List Char) :
    (squeeze text).dropWhile wanted = squeeze (text.dropWhile wanted) := by
  have shape := List.takeWhile_append_dropWhile (p := wanted) (l := text)
  have solid : ∀ c ∈ text.takeWhile wanted, isBlank c = false := by
    intro c member
    by_contra blank
    have isWanted := List.mem_takeWhile_imp member
    rw [unwanted c (by simpa using blank)] at isWanted
    cases isWanted
  have stops : (squeeze (text.dropWhile wanted)).takeWhile wanted = [] := by
    cases rest : text.dropWhile wanted with
    | nil => rfl
    | cons c others =>
        have stop : wanted c = false := by
          have head := List.head?_dropWhile_not wanted text
          rw [rest] at head
          simpa using head
        cases blank : isBlank c with
        | false => simp [squeeze_cons_of_solid blank, stop]
        | true =>
            have space : wanted ' ' = false := unwanted ' ' isBlank_space
            rw [squeeze_of_startsBlank (show startsBlank (c :: others) = true from blank)]
            simp [space]
  have each : ∀ c ∈ text.takeWhile wanted, wanted c = true :=
    fun c member => List.mem_takeWhile_imp member
  have whole := List.takeWhile_append_dropWhile (p := wanted) (l := squeeze (text.dropWhile wanted))
  rw [stops, List.nil_append] at whole
  conv_lhs => rw [← shape, squeeze_append_of_solid solid, List.dropWhile_append_of_pos each, whole]

end GodotGraph.Text
