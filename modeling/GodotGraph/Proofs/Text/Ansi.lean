import GodotGraph.Moment
import GodotGraph.Text.Ansi

/-!
Contract: texts with colour sequences, and what is left of them without.

Owns:
- taking the colour sequences out of a text;
- texts without an escape character, those of numbers among them;
- texts of which some parts are painted.

Does not own: which parts of a report are painted.

A colour sequence starts at an escape character and ends at its first letter. What follows has no
part in it, so the sequences are taken out part by part.
-/

set_option autoImplicit false

namespace GodotGraph

namespace Text

/-! ## Taking sequences out -/

/-- A character between the opening of a colour sequence and its end. -/
def isParameter (c : Char) : Bool := c.isDigit || c = ';'

/-- What follows the colour sequence at the start of a text. -/
def afterSequence? : List Char → Option (List Char)
  | first :: '[' :: rest =>
      if first = escape then
        match rest.dropWhile isParameter with
        | 'm' :: behind => some behind
        | _ => none
      else none
  | _ => none

theorem length_lt_of_afterSequence? {text behind : List Char}
    (found : afterSequence? text = some behind) : behind.length < text.length := by
  unfold afterSequence? at found
  split at found
  · next first rest =>
      split at found
      · split at found
        · next ending =>
            have shorter := (List.dropWhile_suffix isParameter (l := rest)).length_le
            rw [ending, Option.some.inj found] at shorter
            simp only [List.length_cons] at shorter ⊢
            omega
        · cases found
      · cases found
  · cases found

/-- The text without its colour sequences. -/
def withoutSequences : List Char → List Char
  | [] => []
  | first :: rest =>
      match _found : afterSequence? (first :: rest) with
      | some behind => withoutSequences behind
      | none => first :: withoutSequences rest
  termination_by text => text.length
  decreasing_by
    · exact length_lt_of_afterSequence? _found
    · exact Nat.lt_succ_self _

/-- The text without its colour sequences. -/
def uncolored (text : String) : String := String.ofList (withoutSequences text.toList)

theorem withoutSequences_of_afterSequence? {text behind : List Char}
    (found : afterSequence? text = some behind) :
    withoutSequences text = withoutSequences behind := by
  cases text with
  | nil => cases found
  | cons first rest =>
      rw [withoutSequences]
      split
      · next same =>
          rw [found] at same
          rw [Option.some.inj same]
      · next none => rw [found] at none; cases none

theorem afterSequence?_cons_of_ne {c : Char} (other : c ≠ escape) (rest : List Char) :
    afterSequence? (c :: rest) = none := by
  unfold afterSequence?
  split
  · next same =>
      rw [(List.cons.inj same).1] at other
      exact if_neg other
  · rfl

theorem withoutSequences_cons_of_ne {c : Char} (other : c ≠ escape) (rest : List Char) :
    withoutSequences (c :: rest) = c :: withoutSequences rest := by
  rw [withoutSequences]
  split
  · next found =>
      rw [afterSequence?_cons_of_ne other] at found
      cases found
  · rfl

theorem withoutSequences_append_of_notMem {front : List Char} (free : escape ∉ front)
    (rest : List Char) : withoutSequences (front ++ rest) = front ++ withoutSequences rest := by
  induction front with
  | nil => rfl
  | cons c front inductionHypothesis =>
      have other : c ≠ escape := fun same => free (same ▸ List.mem_cons_self)
      rw [List.cons_append, withoutSequences_cons_of_ne other,
        inductionHypothesis fun member => free (List.mem_cons_of_mem c member), List.cons_append]

/-! ## Sequences -/

theorem toList_sequence (code : String) :
    (sequence code).toList = escape :: '[' :: (code.toList ++ ['m']) := by
  simp [sequence]

theorem afterSequence?_sequence {code : String} (parameters : code.toList.all isParameter)
    (rest : List Char) : afterSequence? ((sequence code).toList ++ rest) = some rest := by
  have ending : ((code.toList ++ ['m']) ++ rest).dropWhile isParameter = 'm' :: rest := by
    rw [List.append_assoc, List.dropWhile_append_of_pos (List.all_eq_true.1 parameters)]
    rfl
  rw [toList_sequence, List.cons_append, List.cons_append, afterSequence?, if_pos rfl, ending]
  rfl

theorem withoutSequences_sequence {code : String} (parameters : code.toList.all isParameter)
    (rest : List Char) :
    withoutSequences ((sequence code).toList ++ rest) = withoutSequences rest :=
  withoutSequences_of_afterSequence? (afterSequence?_sequence parameters rest)

theorem Style.all_isParameter_code (style : Style) : style.code.toList.all isParameter := by
  cases style <;> decide

/-! ## Plain texts -/

/-- There is no escape character in the text. -/
def IsPlain (text : String) : Prop := escape ∉ text.toList

instance : DecidablePred IsPlain := fun text =>
  inferInstanceAs (Decidable (escape ∉ text.toList))

theorem isPlain_append {first second : String} :
    IsPlain (first ++ second) ↔ IsPlain first ∧ IsPlain second := by
  simp only [IsPlain, String.toList_append, List.mem_append, not_or]

theorem isPlain_intercalate {separator : String} (plain : IsPlain separator) {texts : List String}
    (each : ∀ text ∈ texts, IsPlain text) : IsPlain (String.intercalate separator texts) := by
  induction texts with
  | nil =>
      rw [String.intercalate_nil]
      decide
  | cons text rest inductionHypothesis =>
      have textPlain : IsPlain text := each text List.mem_cons_self
      have restPlain : ∀ other ∈ rest, IsPlain other :=
        fun other member => each other (List.mem_cons_of_mem text member)
      cases rest with
      | nil =>
          rw [String.intercalate_singleton]
          exact textPlain
      | cons next rest =>
          rw [String.intercalate_cons_cons, isPlain_append, isPlain_append]
          exact ⟨⟨textPlain, plain⟩, inductionHypothesis restPlain⟩

theorem isDigit_ne_escape {c : Char} (digit : c.isDigit) : c ≠ escape := by
  rintro rfl
  exact absurd digit (by decide)

theorem notMem_toDigits (n : Nat) : escape ∉ Nat.toDigits 10 n := fun member =>
  isDigit_ne_escape (Nat.isDigit_of_mem_toDigits (by decide) (by decide) member) rfl

theorem isPlain_toString (n : Nat) : IsPlain (toString n) := by
  show escape ∉ n.repr.toList
  rw [Nat.toList_repr]
  exact notMem_toDigits n

end Text

open Text (IsPlain isPlain_append isPlain_toString)

theorem Decimal.isPlain_padded (width n : Nat) : IsPlain (padded width n) := by
  intro member
  rw [padded, String.toList_ofList] at member
  rcases List.mem_append.1 member with zero | digit
  · exact absurd (List.eq_of_mem_replicate zero) (by decide)
  · exact Text.notMem_toDigits n digit

theorem Decimal.Quotient.isPlain_text (places : Nat) (value : Quotient) :
    IsPlain (value.text places) := by
  unfold Quotient.text fixed
  simp +decide only [isPlain_append, isPlain_toString, isPlain_padded]

theorem Duration.isPlain_text (duration : Duration) : IsPlain duration.text := by
  unfold Duration.text
  dsimp only
  split
  · simp +decide only [isPlain_append, isPlain_toString]
  · split
    · simp +decide only [isPlain_append, isPlain_toString, Decimal.isPlain_padded]
    · simp +decide only [isPlain_append, isPlain_toString]

namespace Text

/-! ## Painted texts -/

/-- A text with some parts painted, and the same text without colours. -/
inductive Painted : String → String → Prop
  | plain {text : String} (plain : IsPlain text) : Painted text text
  | paint (style : Style) {text : String} (plain : IsPlain text) :
      Painted (paint true style text) (paint false style text)
  | append {first plainFirst second plainSecond : String} (former : Painted first plainFirst)
      (latter : Painted second plainSecond) : Painted (first ++ second) (plainFirst ++ plainSecond)

namespace Painted

theorem empty : Painted "" "" := .plain (by decide)

theorem ite {condition : Prop} [Decidable condition] {first plainFirst second plainSecond : String}
    (former : Painted first plainFirst) (latter : Painted second plainSecond) :
    Painted (if condition then first else second)
      (if condition then plainFirst else plainSecond) := by
  split
  · exact former
  · exact latter

theorem join {α : Type} {parts : List α} {colored plain : α → String}
    (each : ∀ part ∈ parts, Painted (colored part) (plain part)) :
    Painted (String.join (parts.map colored)) (String.join (parts.map plain)) := by
  induction parts with
  | nil => exact empty
  | cons part parts inductionHypothesis =>
      rw [List.map_cons, List.map_cons, String.join_cons, String.join_cons]
      apply append
      · exact each part List.mem_cons_self
      · exact inductionHypothesis fun other member => each other (List.mem_cons_of_mem part member)

theorem isPlain {colored plain : String} (painted : Painted colored plain) : IsPlain plain := by
  induction painted with
  | plain plain => exact plain
  | paint style plain => exact plain
  | append _ _ former latter => exact isPlain_append.2 ⟨former, latter⟩

/-- The colours of a painted text go without a trace, whatever follows it. -/
theorem withoutSequences_append {colored plain : String} (painted : Painted colored plain)
    (rest : List Char) :
    withoutSequences (colored.toList ++ rest) = plain.toList ++ withoutSequences rest := by
  induction painted generalizing rest with
  | plain plain => exact withoutSequences_append_of_notMem plain rest
  | paint style plain =>
      have off : "0".toList.all isParameter := by decide
      rw [Text.paint, if_pos rfl, String.toList_append, String.toList_append, List.append_assoc,
        List.append_assoc, withoutSequences_sequence style.all_isParameter_code,
        withoutSequences_append_of_notMem plain, withoutSequences_sequence off, paint_false]
  | append _ _ former latter =>
      rw [String.toList_append, List.append_assoc, former, latter, String.toList_append,
        List.append_assoc]

theorem uncolored {colored plain : String} (painted : Painted colored plain) :
    uncolored colored = plain := by
  have whole := painted.withoutSequences_append []
  rw [withoutSequences, List.append_nil, List.append_nil] at whole
  rw [Text.uncolored, whole, String.ofList_toList]

end Painted

-- A sequence of another kind stays.
example : uncolored (paint true .boldRed "ab" ++ " c" ++ sequence "x") =
    "ab c" ++ sequence "x" := by
  cbv

end Text

end GodotGraph
