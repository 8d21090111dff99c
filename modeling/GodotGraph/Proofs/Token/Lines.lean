import GodotGraph.Proofs.Text.Pieces
import GodotGraph.Proofs.Token.Stream

/-!
Contract: the token stream of a text as the words of its lines.

Owns:
- the words of a line, by splitting it at blanks;
- the stream of a text, by cutting the padded text into lines;
- texts that are read in two parts.

Does not own: what the padding of Godot texts does to a word.

Padding comes before lines. A replacement may hold blanks, line ends and several words, and its
ends may belong to the words around it.
-/

set_option autoImplicit false

namespace GodotGraph.Token

/-- The words of a line: the pieces between its blanks, without the empty ones. -/
def lineWords (line : List Char) : List String :=
  ((line.splitOnP Text.isBlank).filter fun word => !word.isEmpty).map String.ofList

/-- The words of each line of a text, with one newline for each line end. -/
def linewise (text : List Char) : List String :=
  [newline].intercalate ((Text.pieces '\n' text).map lineWords)

/-! ## Lines -/

theorem lineWords_append_blank (first rest : List Char) {c : Char}
    (blank : Text.isBlank c = true) :
    lineWords (first ++ c :: rest) = lineWords first ++ lineWords rest := by
  rw [lineWords, List.splitOnP_append_cons first rest blank, List.filter_append, List.map_append]
  rfl

/-- A run without blanks is one word, or no word if it is empty. -/
theorem ofPadded_eq_lineWords_of_solid {word : List Char}
    (solid : ∀ c ∈ word, Text.isBlank c = false) : ofPadded word = lineWords word := by
  by_cases filled : word = []
  · rw [filled]
    rfl
  · rw [ofPadded_solid filled solid, lineWords, List.splitOnP_eq_singleton solid]
    simp [filled]

/-- The rest of a line is read word by word, whatever word has been started. -/
theorem ofPadded_word_append {word rest : List Char} (solid : ∀ c ∈ word, Text.isBlank c = false)
    (inLine : '\n' ∉ rest) : ofPadded (word ++ rest) = lineWords (word ++ rest) := by
  induction rest generalizing word with
  | nil => rw [List.append_nil, ofPadded_eq_lineWords_of_solid solid]
  | cons c others inductionHypothesis =>
      obtain ⟨notNewline, later⟩ : '\n' ≠ c ∧ '\n' ∉ others := by simpa using inLine
      by_cases blank : Text.isBlank c = true
      · have fresh : ofPadded ([] ++ others) = lineWords ([] ++ others) :=
          inductionHypothesis (by simp) later
        rw [ofPadded_append_blank word others blank (Ne.symm notNewline),
          lineWords_append_blank word others blank, ofPadded_eq_lineWords_of_solid solid]
        exact congrArg (lineWords word ++ ·) fresh
      · have longer : ∀ d ∈ word ++ [c], Text.isBlank d = false := by
          simpa [or_imp, forall_and, blank] using solid
        rw [List.append_cons]
        exact inductionHypothesis longer later

/-- Joined lines are read one after the other. -/
theorem ofPadded_intercalate {lines : List (List Char)} (filled : lines ≠ []) :
    ofPadded (['\n'].intercalate lines) = [newline].intercalate (lines.map ofPadded) := by
  induction lines with
  | nil => exact absurd rfl filled
  | cons line others inductionHypothesis =>
      cases others with
      | nil => simp
      | cons next more =>
          have later := inductionHypothesis (by simp)
          rw [List.map_cons, List.map_cons, List.intercalate_cons_cons, List.intercalate_cons_cons,
            List.append_assoc, List.singleton_append, ofPadded_append_newline, later,
            List.map_cons, List.append_assoc, List.singleton_append]

theorem ofPadded_eq_linewise (text : List Char) : ofPadded text = linewise text := by
  conv_lhs => rw [← Text.intercalate_pieces '\n' text]
  rw [ofPadded_intercalate (Text.pieces_ne_nil _ _), linewise]
  refine congrArg [newline].intercalate (List.map_congr_left fun line isLine => ?_)
  exact ofPadded_word_append (List.forall_mem_nil _) (Text.not_mem_of_mem_pieces isLine)

/-! ## Parts -/

/-- What stands before a blank, the blank and what follows it are read apart. -/
theorem ofPadded_append_cons (first rest : List Char) {c : Char} (blank : Text.isBlank c = true) :
    ofPadded (first ++ c :: rest) = ofPadded first ++ ofPadded [c] ++ ofPadded rest := by
  by_cases lineEnd : c = '\n'
  · have alone : ofPadded ['\n'] = [newline] := ofPadded_append_newline [] []
    rw [lineEnd, ofPadded_append_newline, alone, List.append_assoc, List.singleton_append]
  · have alone : ofPadded [c] = [] := ofPadded_append_blank [] [] blank lineEnd
    rw [ofPadded_append_blank first rest blank lineEnd, alone, List.append_nil]

/-- The tokens of a text are the words of the lines of the padded text, with a newline for each
line end. No token is empty, none but the newline has a blank in it, and two texts that meet at a
blank of the padded text are read one after the other. -/
theorem ofText_linewise (padding : Padding) (text : String) :
    ofText padding text = linewise (padding.pad text.toList) ∧
      (∀ token ∈ ofText padding text, token ≠ "" ∧
        (token ≠ newline → ∀ c ∈ token.toList, Text.isBlank c = false)) ∧
      ∀ other : String,
        (∀ c ∈ (padding.pad text.toList).getLast?, Text.isBlank c = true) ∨
          (∀ c ∈ (padding.pad other.toList).head?, Text.isBlank c = true) →
        ofText padding (text ++ other) = ofText padding text ++ ofText padding other := by
  refine ⟨ofPadded_eq_linewise _, ?shape, ?parts⟩
  case shape =>
    intro token member
    rcases isWord_or_newline_of_mem token member with ⟨filled, solid⟩ | rfl
    · exact ⟨filled, fun _ => solid⟩
    · exact ⟨by decide, fun other => absurd rfl other⟩
  case parts =>
    intro other meets
    rw [ofText, String.toList_append, Padding.pad_append]
    rcases meets with ends | starts
    · exact append_of_getLast? ofPadded_nil ofPadded_append_cons ends _
    · exact append_of_head? ofPadded_nil ofPadded_append_cons starts _

/-- A padding whose replacements hold a line end, and two words that run into the text. -/
def rowPadding : Padding :=
  (Padding.empty.set '|' " ;\n").set '-' "to the"

theorem ofText_linewise_rows :
    (∀ c ∈ (rowPadding.pad "a|".toList).getLast?, Text.isBlank c = true) ∧
      ofText rowPadding "a|" = linewise (rowPadding.pad "a|".toList) ∧
        ofText rowPadding ("a|" ++ "x-y") = ofText rowPadding "a|" ++ ofText rowPadding "x-y" := by
  obtain ⟨lines, -, parts⟩ := ofText_linewise rowPadding "a|"
  have last : (rowPadding.pad "a|".toList).getLast? = some '\n' := by decide +kernel
  have ends : ∀ c ∈ (rowPadding.pad "a|".toList).getLast?, Text.isBlank c = true := by
    rw [last]
    rintro c ⟨⟩
    rfl
  exact ⟨ends, lines, parts "x-y" (Or.inl ends)⟩

example : ofText rowPadding "a|x-y" = ["a", ";", "\n", "xto", "they"] := by
  decide +kernel

end GodotGraph.Token
