import GodotGraph.Pattern.Cursor
import Mathlib.Data.String.Basic

/-!
Contract: positions of a text, seen as the parts of the text that are left there.

Owns:
- the cursor at a part that ends the text of another cursor;
- skipping and advancing as moves to such parts;
- the order of positions, which is the order of the lengths left.
-/

set_option autoImplicit false

namespace GodotGraph.Text

theorem drop_length_takeWhile (wanted : Char → Bool) (text : List Char) :
    text.drop (text.takeWhile wanted).length = text.dropWhile wanted := by
  induction text with
  | nil => rfl
  | cons c rest inductionHypothesis =>
      by_cases hit : wanted c = true
      · simpa [hit] using inductionHypothesis
      · simp [hit]

theorem trimStart_suffix (text : List Char) : trimStart text <:+ text :=
  List.dropWhile_suffix _

theorem trimStart_cons_of_solid {c : Char} {rest : List Char} (solid : isBlank c = false) :
    trimStart (c :: rest) = c :: rest := by
  simp [trimStart, solid]

theorem trimStart_of_head {text : List Char} (solid : ∀ c ∈ text.head?, isBlank c = false) :
    trimStart text = text := by
  cases text with
  | nil => rfl
  | cons c rest => exact trimStart_cons_of_solid (solid c rfl)

theorem trimStart_append_of_blank {blanks text : List Char} (blank : ∀ c ∈ blanks, isBlank c = true) :
    trimStart (blanks ++ text) = trimStart text := by
  simp only [trimStart]
  rw [List.dropWhile_append_of_pos blank]

end GodotGraph.Text

namespace GodotGraph.Pattern

theorem byteLength_nil : byteLength [] = 0 := rfl

theorem byteLength_append (first second : List Char) :
    byteLength (first ++ second) = byteLength first + byteLength second := by
  induction first with
  | nil => simp [byteLength]
  | cons c rest inductionHypothesis =>
      simp only [byteLength, List.cons_append, List.foldr_cons] at *
      omega

theorem byteLength_toList (text : String) : byteLength text.toList = text.utf8ByteSize := by
  rw [← String.utf8Len_toList]
  induction text.toList with
  | nil => rfl
  | cons c rest inductionHypothesis =>
      rw [String.utf8Len_cons, ← inductionHypothesis, Nat.add_comm]
      rfl

theorem byteLength_le_of_suffix {rest text : List Char} (ending : rest <:+ text) :
    byteLength rest ≤ byteLength text := by
  obtain ⟨read, rfl⟩ := ending
  rw [byteLength_append]
  omega

/-- Of two ends of a text the shorter one has fewer bytes. -/
theorem byteLength_lt_iff {left right text : List Char} (leftEnds : left <:+ text)
    (rightEnds : right <:+ text) :
    byteLength left < byteLength right ↔ left.length < right.length := by
  have shorter : ∀ {small large : List Char}, small <:+ text → large <:+ text →
      small.length < large.length → byteLength small < byteLength large := by
    intro small large smallEnds largeEnds less
    obtain ⟨read, rfl⟩ := List.suffix_of_suffix_length_le smallEnds largeEnds (Nat.le_of_lt less)
    cases read with
    | nil => simp at less
    | cons c others =>
        have size := c.utf8Size_pos
        rw [byteLength_append]
        simp only [byteLength, List.foldr_cons]
        omega
  constructor
  · intro less
    by_contra notShorter
    rcases Nat.lt_or_eq_of_le (Nat.not_lt.1 notShorter) with longer | equal
    · have := shorter rightEnds leftEnds longer
      omega
    · have same : left = right :=
        (List.suffix_of_suffix_length_le leftEnds rightEnds (by omega)).eq_of_length equal.symm
      rw [same] at less
      omega
  · exact shorter leftEnds rightEnds

namespace Cursor

/-- The cursor where the given end of the text is left. -/
def goto (cursor : Cursor) (rest : List Char) : Cursor :=
  ⟨cursor.offset + (byteLength cursor.rest - byteLength rest), rest⟩

@[simp] theorem goto_rest (cursor : Cursor) (rest : List Char) : (cursor.goto rest).rest = rest :=
  rfl

@[simp] theorem goto_self (cursor : Cursor) : cursor.goto cursor.rest = cursor := by
  simp [goto]

theorem goto_goto {cursor : Cursor} {first second : List Char} (firstEnds : first <:+ cursor.rest)
    (secondEnds : second <:+ first) : (cursor.goto first).goto second = cursor.goto second := by
  have outer := byteLength_le_of_suffix firstEnds
  have inner := byteLength_le_of_suffix secondEnds
  simp only [goto, Cursor.mk.injEq, and_true]
  omega

/-- The less is left, the further on the cursor stands. -/
theorem offset_goto_lt_iff {cursor : Cursor} {left right : List Char}
    (leftEnds : left <:+ cursor.rest) (rightEnds : right <:+ cursor.rest) :
    (cursor.goto left).offset < (cursor.goto right).offset ↔ right.length < left.length := by
  rw [← byteLength_lt_iff rightEnds leftEnds]
  have leftLe := byteLength_le_of_suffix leftEnds
  have rightLe := byteLength_le_of_suffix rightEnds
  simp only [goto]
  omega

theorem offset_goto_le_iff {cursor : Cursor} {left right : List Char}
    (leftEnds : left <:+ cursor.rest) (rightEnds : right <:+ cursor.rest) :
    (cursor.goto left).offset ≤ (cursor.goto right).offset ↔ right.length ≤ left.length := by
  rw [← Nat.not_lt, offset_goto_lt_iff rightEnds leftEnds, Nat.not_lt]

theorem advance_eq_goto (cursor : Cursor) (count : Nat) :
    cursor.advance count = cursor.goto (cursor.rest.drop count) := by
  have split : byteLength cursor.rest =
      byteLength (cursor.rest.take count) + byteLength (cursor.rest.drop count) := by
    rw [← byteLength_append, List.take_append_drop]
  simp only [advance, goto, Cursor.mk.injEq, and_true]
  omega

theorem skipBlanks_eq_goto (cursor : Cursor) :
    cursor.skipBlanks = cursor.goto (Text.trimStart cursor.rest) := by
  rw [skipBlanks, advance_eq_goto, Text.drop_length_takeWhile]
  rfl

theorem strip?_eq_some {cursor : Cursor} {expected : List Char}
    (starts : expected.isPrefixOf cursor.rest = true) :
    cursor.strip? expected = some (cursor.goto (cursor.rest.drop expected.length)) := by
  simp [strip?, starts, advance_eq_goto]

theorem strip?_eq_none {cursor : Cursor} {expected : List Char}
    (differs : expected.isPrefixOf cursor.rest = false) : cursor.strip? expected = none := by
  simp [strip?, differs]

end Cursor

end GodotGraph.Pattern
