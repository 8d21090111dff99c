import GodotGraph.Text.Blank
import Mathlib.Data.List.Basic

/-!
Contract: the pieces and the lines of a text.

Owns:
- cutting at a separator as the inverse of joining with it;
- the lines of a text, which hold no line end, and the text of some lines.
-/

set_option autoImplicit false

namespace GodotGraph.Text

/-! ## Pieces -/

theorem pieces_append_separator (separator : Char) (first second : List Char) :
    pieces separator (first ++ separator :: second) =
      pieces separator first ++ pieces separator second := by
  induction first with
  | nil => simp [pieces]
  | cons c rest inductionHypothesis =>
      rw [List.cons_append, pieces, pieces, inductionHypothesis]
      split
      · rfl
      · cases shape : pieces separator rest with
        | nil => exact absurd shape (pieces_ne_nil _ _)
        | cons piece others => rfl

theorem pieces_of_not_mem {separator : Char} {text : List Char} (absent : separator ∉ text) :
    pieces separator text = [text] := by
  induction text with
  | nil => rfl
  | cons c rest inductionHypothesis =>
      obtain ⟨other, later⟩ : separator ≠ c ∧ separator ∉ rest := by simpa using absent
      rw [pieces, if_neg (Ne.symm other), inductionHypothesis later]

/-- Cutting at a separator is the library's splitting. -/
theorem pieces_eq_splitOn (separator : Char) (text : List Char) :
    pieces separator text = text.splitOn separator := by
  induction text with
  | nil => simp [pieces]
  | cons c rest inductionHypothesis =>
      rw [List.splitOn_eq_splitOnP, List.splitOnP_cons_eq_if_modifyHead, ← List.splitOn_eq_splitOnP,
        ← inductionHypothesis, pieces]
      by_cases cut : c = separator
      · simp [cut]
      · cases shape : pieces separator rest with
        | nil => exact absurd shape (pieces_ne_nil _ _)
        | cons piece others => simp [cut]

theorem not_mem_of_mem_pieces {separator : Char} {text piece : List Char}
    (isPiece : piece ∈ pieces separator text) : separator ∉ piece := by
  induction text generalizing piece with
  | nil =>
      obtain rfl : piece = [] := by simpa [pieces] using isPiece
      simp
  | cons c rest inductionHypothesis =>
      unfold pieces at isPiece
      split at isPiece
      · rcases List.mem_cons.1 isPiece with rfl | inRest
        · simp
        · exact inductionHypothesis inRest
      · next other =>
          cases shape : pieces separator rest with
          | nil => exact absurd shape (pieces_ne_nil _ _)
          | cons first others =>
              rw [shape] at isPiece inductionHypothesis
              rcases List.mem_cons.1 isPiece with rfl | inOthers
              · have inFirst := inductionHypothesis (List.mem_cons_self (a := first) (l := others))
                simpa [Ne.symm other] using inFirst
              · exact inductionHypothesis (List.mem_cons_of_mem _ inOthers)

theorem mem_of_mem_pieces {separator c : Char} {text piece : List Char}
    (isPiece : piece ∈ pieces separator text) (inside : c ∈ piece) : c ∈ text := by
  induction text generalizing piece with
  | nil =>
      obtain rfl : piece = [] := by simpa [pieces] using isPiece
      simp at inside
  | cons head rest inductionHypothesis =>
      unfold pieces at isPiece
      split at isPiece
      · rcases List.mem_cons.1 isPiece with rfl | inRest
        · simp at inside
        · exact List.mem_cons_of_mem _ (inductionHypothesis inRest inside)
      · cases shape : pieces separator rest with
        | nil => exact absurd shape (pieces_ne_nil _ _)
        | cons first others =>
            rw [shape] at isPiece
            rcases List.mem_cons.1 isPiece with rfl | inOthers
            · rcases List.mem_cons.1 inside with rfl | inFirst
              · exact List.mem_cons_self
              · exact List.mem_cons_of_mem _
                  (inductionHypothesis (by simp [shape]) inFirst)
            · exact List.mem_cons_of_mem _
                (inductionHypothesis (by simp [shape, inOthers]) inside)

/-- Joined pieces are the text that they were cut from. -/
theorem intercalate_pieces (separator : Char) (text : List Char) :
    [separator].intercalate (pieces separator text) = text := by
  induction text with
  | nil => simp [pieces]
  | cons c rest inductionHypothesis =>
      cases shape : pieces separator rest with
      | nil => exact absurd shape (pieces_ne_nil _ _)
      | cons piece others =>
          rw [shape] at inductionHypothesis
          by_cases cut : c = separator
          · rw [pieces, if_pos cut, shape, List.intercalate_cons_cons, inductionHypothesis, cut]
            rfl
          · rw [pieces, if_neg cut, shape]
            cases others with
            | nil => simpa using inductionHypothesis
            | cons next more =>
                rw [List.intercalate_cons_cons] at inductionHypothesis ⊢
                rw [← inductionHypothesis]
                rfl

/-! ## Lines -/

theorem exists_piece_of_mem_lines {parts : List (List Char)} {line : List Char}
    (member : line ∈ linesOfPieces parts) : ∃ piece ∈ parts, line <+: piece := by
  induction parts with
  | nil => simp [linesOfPieces] at member
  | cons piece others inductionHypothesis =>
      cases others with
      | nil =>
          rw [linesOfPieces] at member
          split at member
          · simp at member
          · obtain rfl := List.mem_singleton.1 member
            exact ⟨line, List.mem_cons_self, List.prefix_refl _⟩
      | cons next more =>
          rw [linesOfPieces] at member
          · rcases List.mem_cons.1 member with rfl | inMore
            · refine ⟨piece, List.mem_cons_self, ?_⟩
              rw [dropReturn]
              split
              · exact List.dropLast_prefix piece
              · exact List.prefix_refl piece
            · obtain ⟨found, inside, starts⟩ := inductionHypothesis inMore
              exact ⟨found, List.mem_cons_of_mem _ inside, starts⟩
          · simp

theorem newline_not_mem_lines {text line : List Char} (member : line ∈ lines text) :
    '\n' ∉ line := by
  obtain ⟨piece, inPieces, starts⟩ := exists_piece_of_mem_lines member
  exact fun inLine => not_mem_of_mem_pieces inPieces (starts.subset inLine)

/-- Lines that are each closed by a newline are the lines of their text. -/
theorem lines_flatMap_newline {written : List (List Char)}
    (clean : ∀ line ∈ written, '\n' ∉ line ∧ line.getLast? ≠ some '\r') :
    lines (written.flatMap fun line => line ++ ['\n']) = written := by
  induction written with
  | nil => rfl
  | cons line rest inductionHypothesis =>
      obtain ⟨inLine, noReturn⟩ := clean line List.mem_cons_self
      have later := inductionHypothesis fun next member =>
        clean next (List.mem_cons_of_mem _ member)
      have shape : lines ((line :: rest).flatMap fun line => line ++ ['\n']) =
          linesOfPieces (line :: pieces '\n' (rest.flatMap fun line => line ++ ['\n'])) := by
        rw [lines, List.flatMap_cons, List.append_assoc, List.singleton_append,
          pieces_append_separator, pieces_of_not_mem inLine, List.singleton_append]
      rw [shape]
      cases others : pieces '\n' (rest.flatMap fun line => line ++ ['\n']) with
      | nil => exact absurd others (pieces_ne_nil _ _)
      | cons next more =>
          rw [linesOfPieces, ← others]
          · rw [lines] at later
            rw [later, dropReturn, if_neg noReturn]
          · simp

end GodotGraph.Text
