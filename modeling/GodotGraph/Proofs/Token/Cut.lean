import GodotGraph.Proofs.Token.Stream
import Mathlib.Data.List.DropRight

/-!
Contract: the places where a Godot text can be cut without cutting a token.

Owns:
- breaks, which are the blanks and the Godot marks, and solid runs between them;
- the stream of a text as the streams of two parts that meet at a break;
- the characters of tokens, and marks as tokens of their own.
-/

set_option autoImplicit false

namespace GodotGraph.Token

/-- A character that belongs to no word. -/
def isBreak (c : Char) : Bool :=
  Text.isBlank c || Padding.godotMarks.contains c

/-- A character that words are made of. -/
def isSolid (c : Char) : Bool :=
  !isBreak c

/-! ## Cuts -/

/-- Whatever follows a break is read apart. -/
theorem ofGodot_append_break (first rest : List Char) {c : Char} (breaks : isBreak c = true) :
    ofGodot (first ++ c :: rest) = ofGodot first ++ ofGodot [c] ++ ofGodot rest := by
  rw [isBreak, Bool.or_eq_true, List.contains_iff_mem] at breaks
  rcases breaks with blank | mark
  · by_cases lineEnd : c = '\n'
    · subst lineEnd
      have alone : ofGodot ['\n'] = [newline] := ofGodot_append_newline [] []
      rw [ofGodot_append_newline, alone, List.append_assoc, List.singleton_append]
    · have alone : ofGodot [c] = [] := ofGodot_append_blank [] [] blank lineEnd
      rw [ofGodot_append_blank _ _ blank lineEnd, alone, List.append_nil]
  · have alone : ofGodot [c] = [String.ofList [c]] := ofGodot_append_mark [] [] mark
    rw [ofGodot_append_mark _ _ mark, alone, List.append_assoc, List.singleton_append]

/-- A text can be cut after a break. -/
theorem ofGodot_append_of_getLast? {first : List Char}
    (breaks : ∀ c ∈ first.getLast?, isBreak c = true) (rest : List Char) :
    ofGodot (first ++ rest) = ofGodot first ++ ofGodot rest :=
  append_of_getLast? ofGodot_nil ofGodot_append_break breaks rest

/-- A text can be cut before a break. -/
theorem ofGodot_append_of_head? {rest : List Char}
    (breaks : ∀ c ∈ rest.head?, isBreak c = true) (first : List Char) :
    ofGodot (first ++ rest) = ofGodot first ++ ofGodot rest :=
  append_of_head? ofGodot_nil ofGodot_append_break breaks first

theorem ofGodot_solid {word : List Char} (filled : word ≠ [])
    (solid : ∀ c ∈ word, isSolid c = true) : ofGodot word = [String.ofList word] := by
  have notBreak : ∀ c ∈ word, Text.isBlank c = false ∧ c ∉ Padding.godotMarks := by
    intro c member
    simpa [isSolid, isBreak] using solid c member
  exact ofGodot_word filled (fun c member => (notBreak c member).1)
    fun c member => (notBreak c member).2

theorem isBlank_of_isSolid {c : Char} (solid : isSolid c = true) : Text.isBlank c = false := by
  by_contra blank
  simp [isSolid, isBreak, blank] at solid

theorem isWord_ofList {letters : List Char} (filled : letters ≠ [])
    (solid : ∀ c ∈ letters, isSolid c = true) : IsWord (String.ofList letters) := by
  constructor
  · intro empty
    have none := congrArg String.toList empty
    rw [String.toList_ofList] at none
    exact filled none
  · intro c inside
    rw [String.toList_ofList] at inside
    exact isBlank_of_isSolid (solid c inside)

/-! ## Ends of words -/

theorem dropWhile_isSolid_breaks (text : List Char) :
    ∀ c ∈ (text.dropWhile isSolid).head?, isBreak c = true := by
  intro c head
  have stops := List.head?_dropWhile_not isSolid text
  rw [Option.mem_def] at head
  rw [head] at stops
  simpa [isSolid] using stops

/-- A text that starts with a word or a mark has a token. -/
theorem ofGodot_ne_nil {c : Char} (filled : Text.isBlank c = false) (rest : List Char) :
    ofGodot (c :: rest) ≠ [] := by
  by_cases mark : c ∈ Padding.godotMarks
  · have cut := ofGodot_append_mark [] rest mark
    rw [List.nil_append, ofGodot_nil, List.nil_append] at cut
    simp [cut]
  · have head : isSolid c = true := by simp [isSolid, isBreak, filled, mark]
    have run : (c :: rest).takeWhile isSolid ≠ [] := by simp [head]
    have split := List.takeWhile_append_dropWhile (p := isSolid) (l := c :: rest)
    rw [← split, ofGodot_append_of_head? (dropWhile_isSolid_breaks _), ofGodot_solid run
      fun d member => List.all_eq_true.1 List.all_takeWhile d member]
    exact List.cons_ne_nil _ _

theorem ofGodot_eq_nil_of_firstWord {line : List Char} (inLine : '\n' ∉ line)
    (none : Text.firstWord line = none) : ofGodot line = [] := by
  obtain ⟨blanks, blank, split⟩ := Text.trimStart_append line
  have empty : Text.trimStart line = [] := by
    rw [Text.firstWord] at none
    split at none
    · assumption
    · cases none
  rw [empty, List.append_nil] at split
  have blankLine : ∀ c ∈ line, Text.isBlank c = true ∧ c ≠ '\n' :=
    fun c member => ⟨blank c (split ▸ member), fun same => inLine (same ▸ member)⟩
  rw [← List.append_nil line, ofGodot_blanks_append [] blankLine, ofGodot_nil]

theorem ofGodot_ne_nil_of_firstWord {text word : List Char}
    (found : Text.firstWord text = some word) : ofGodot word ≠ [] := by
  rw [Text.firstWord] at found
  cases shape : Text.trimStart text with
  | nil => simp [shape] at found
  | cons c rest =>
      have filled := Text.trimStart_head shape
      rw [shape] at found
      obtain rfl := Option.some.inj found
      rw [List.takeWhile_cons_of_pos (by simp [filled])]
      exact ofGodot_ne_nil filled _

theorem rdropWhile_isSolid_breaks (text : List Char) :
    ∀ c ∈ (text.rdropWhile isSolid).getLast?, isBreak c = true := by
  intro c last
  have filled : text.rdropWhile isSolid ≠ [] := by
    rintro empty
    simp [empty] at last
  have stops := List.rdropWhile_last_not isSolid text filled
  rw [Option.mem_def, List.getLast?_eq_some_getLast filled, Option.some.injEq] at last
  rw [last] at stops
  simpa [isSolid] using stops

/-! ## Characters of tokens -/

theorem not_mem_of_mem_ofGodot {text : List Char} {d : Char} (notSpace : d ≠ ' ')
    (absent : d ∉ text) : ∀ token ∈ ofGodot text, d ∉ token.toList := by
  intro token member inToken
  have padded := mem_of_mem_ofPadded token member d inToken
  obtain ⟨c, inText, expanded⟩ := List.mem_flatMap.1 padded
  rw [Padding.expand_godot] at expanded
  have same : d = c := by
    split at expanded <;> simp_all
  exact absent (same ▸ inText)

theorem newline_not_mem_ofGodot {text : List Char} (absent : '\n' ∉ text) :
    newline ∉ ofGodot text :=
  fun member => not_mem_of_mem_ofGodot (by decide) absent newline member (by decide)

/-- A mark is found in no token but its own. -/
theorem eq_mark_of_mem {mark : Char} (isMark : mark ∈ Padding.godotMarks) {text : List Char} :
    ∀ token ∈ ofGodot text, mark ∈ token.toList → token = String.ofList [mark] := by
  have notSpace : mark ≠ ' ' := by
    rintro rfl
    exact absurd isMark (by decide)
  induction length : text.length using Nat.strong_induction_on generalizing text with
  | _ size inductionHypothesis =>
      intro token member inToken
      by_cases present : mark ∈ text
      · obtain ⟨first, rest, shape, absent⟩ := List.eq_append_cons_of_mem present
        rw [shape, ofGodot_append_mark _ _ isMark, List.mem_append, List.mem_cons] at member
        rcases member with before | same | after
        · exact absurd inToken (not_mem_of_mem_ofGodot notSpace absent token before)
        · exact same
        · exact inductionHypothesis rest.length (by simp [← length, shape]; omega) rfl token after
            inToken
      · exact absurd inToken (not_mem_of_mem_ofGodot notSpace present token member)

end GodotGraph.Token
