import GodotGraph.Text.Blank

/-!
Contract: finding and replacing parts of a text.

Owns: occurrence of one text in another, replacement of single characters, and the
segments between separators as strings.
-/

set_option autoImplicit false

namespace GodotGraph.Text

/-- The first text stands somewhere in the second. -/
def occursIn (part : List Char) : List Char → Bool
  | [] => part.isEmpty
  | c :: rest => part.isPrefixOf (c :: rest) || occursIn part rest

/-- The text with one character replaced by another. -/
def replaceChar (old new : Char) (text : String) : String :=
  String.ofList (text.toList.map fun c => if c = old then new else c)

/-- The segments of a string between slashes. -/
def segments (text : String) : List String :=
  (pieces '/' text.toList).map String.ofList

/-- The segments with one slash between any two. -/
def joinSegments (parts : List String) : String :=
  String.intercalate "/" parts

/-- One text occurs in another if and only if it is a middle part of it. -/
theorem occursIn_iff {part text : List Char} :
    occursIn part text = true ↔ ∃ before after, text = before ++ part ++ after := by
  induction text with
  | nil =>
      constructor
      · intro found
        have : part = [] := by simpa [occursIn] using found
        exact ⟨[], [], by simp [this]⟩
      · rintro ⟨before, after, shape⟩
        have : part = [] := by
          have := congrArg List.length shape
          simp only [List.length_nil, List.length_append] at this
          exact List.length_eq_zero_iff.1 (by omega)
        simp [occursIn, this]
  | cons c rest inductionHypothesis =>
      simp only [occursIn, Bool.or_eq_true, List.isPrefixOf_iff_prefix, inductionHypothesis]
      constructor
      · rintro (⟨after, shape⟩ | ⟨before, after, shape⟩)
        · exact ⟨[], after, by simpa using shape.symm⟩
        · exact ⟨c :: before, after, by simp [shape]⟩
      · rintro ⟨before, after, shape⟩
        cases before with
        | nil => exact Or.inl ⟨after, by simpa using shape.symm⟩
        | cons head tail =>
            refine Or.inr ⟨tail, after, ?_⟩
            simpa using (List.cons.inj (by simpa using shape)).2

end GodotGraph.Text
