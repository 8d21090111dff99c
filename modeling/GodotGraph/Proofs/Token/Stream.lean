import GodotGraph.Token.Stream
import Mathlib.Data.List.Basic

/-!
Contract: the token stream of a text, part by part.

Owns:
- the stream of a text as the streams of its parts, cut at line ends or at other
  blanks;
- the padding of Godot texts, character by character;
- the shape of tokens: a newline, or a run of characters without blanks.

Does not own: what tokens mean.
-/

set_option autoImplicit false

namespace GodotGraph.Token

/-! ## Words of a padded text -/

theorem close_eq (found : List String) (word : String) :
    Reading.close ⟨found, word⟩ = Reading.close ⟨[], word⟩ ++ found := by
  by_cases empty : word = ""
  · simp [Reading.close, empty]
  · simp [Reading.close, empty]

/-- Tokens that were found before stay in front of those still to come. -/
theorem close_foldl_step (text : List Char) (found : List String) (word : String) :
    (text.foldl Reading.step ⟨found, word⟩).close =
      (text.foldl Reading.step ⟨[], word⟩).close ++ found := by
  induction text generalizing found word with
  | nil => exact close_eq found word
  | cons c rest inductionHypothesis =>
      simp only [List.foldl_cons, Reading.step]
      split
      · rw [inductionHypothesis, inductionHypothesis (newline :: Reading.close ⟨[], word⟩),
          close_eq found word]
        simp
      · split
        · rw [inductionHypothesis, inductionHypothesis (Reading.close ⟨[], word⟩),
            close_eq found word]
          simp
        · exact inductionHypothesis found (word.push c)

/-- A line end is a token of its own, and the texts beside it are read apart. -/
theorem ofPadded_append_newline (first rest : List Char) :
    ofPadded (first ++ '\n' :: rest) = ofPadded first ++ newline :: ofPadded rest := by
  have step : ∀ reading : Reading, reading.step '\n' = ⟨newline :: reading.close, ""⟩ :=
    fun reading => rfl
  rw [ofPadded, List.foldl_append, List.foldl_cons, step, close_foldl_step, List.reverse_append]
  simp [ofPadded]

theorem ofPadded_append_blank (first rest : List Char) {c : Char} (blank : Text.isBlank c = true)
    (inLine : c ≠ '\n') : ofPadded (first ++ c :: rest) = ofPadded first ++ ofPadded rest := by
  have step : ∀ reading : Reading, reading.step c = ⟨reading.close, ""⟩ := by
    intro reading
    simp [Reading.step, inLine, blank]
  rw [ofPadded, List.foldl_append, List.foldl_cons, step, close_foldl_step, List.reverse_append]
  simp [ofPadded]

@[simp] theorem ofPadded_nil : ofPadded [] = [] := rfl

theorem foldl_step_solid (word : List Char) (solid : ∀ c ∈ word, Text.isBlank c = false)
    (reading : Reading) :
    word.foldl Reading.step reading =
      ⟨reading.found, String.ofList (reading.word.toList ++ word)⟩ := by
  induction word generalizing reading with
  | nil => simp
  | cons c rest inductionHypothesis =>
      have head := solid c List.mem_cons_self
      have notNewline : c ≠ '\n' := by
        rintro rfl
        exact absurd head (by decide)
      have step : reading.step c = ⟨reading.found, reading.word.push c⟩ := by
        simp [Reading.step, notNewline, head]
      rw [List.foldl_cons, step,
        inductionHypothesis fun d member => solid d (List.mem_cons_of_mem _ member)]
      simp [String.toList_push]

theorem ofPadded_solid {word : List Char} (filled : word ≠ [])
    (solid : ∀ c ∈ word, Text.isBlank c = false) : ofPadded word = [String.ofList word] := by
  rw [ofPadded, foldl_step_solid word solid]
  simp [Reading.close, filled]

/-! ## Texts in two parts -/

section Parts

variable {read : List Char → List String} {breaks : Char → Bool} (nothing : read [] = [])
  (cut : ∀ (first rest : List Char) {c : Char}, breaks c = true →
    read (first ++ c :: rest) = read first ++ read [c] ++ read rest)

include nothing cut

/-- A reading that is cut at certain characters can be cut behind one of them. -/
theorem append_of_getLast? {first : List Char} (ends : ∀ c ∈ first.getLast?, breaks c = true)
    (rest : List Char) : read (first ++ rest) = read first ++ read rest := by
  rcases List.eq_nil_or_concat first with rfl | ⟨front, c, rfl⟩
  · rw [List.nil_append, nothing, List.nil_append]
  · have last : breaks c = true := ends c (by simp)
    have whole := cut front [] last
    rw [nothing, List.append_nil] at whole
    rw [List.concat_eq_append, List.append_assoc, List.singleton_append, cut front rest last, whole]

/-- A reading that is cut at certain characters can be cut before one of them. -/
theorem append_of_head? {rest : List Char} (starts : ∀ c ∈ rest.head?, breaks c = true)
    (first : List Char) : read (first ++ rest) = read first ++ read rest := by
  cases rest with
  | nil => rw [List.append_nil, nothing, List.append_nil]
  | cons c others =>
      have head : breaks c = true := starts c (by simp)
      have alone := cut [] others head
      rw [List.nil_append, nothing, List.nil_append] at alone
      rw [cut first others head, alone, List.append_assoc]

end Parts

/-! ## The shape of tokens -/

/-- The token is a run of characters without blanks. -/
def IsWord (token : String) : Prop :=
  token ≠ "" ∧ ∀ c ∈ token.toList, Text.isBlank c = false

instance (token : String) : Decidable (IsWord token) :=
  decidable_of_iff (token ≠ "" ∧ token.toList.any Text.isBlank = false) (by simp [IsWord])

/-- What was read so far are words and newlines made of the characters of a text. -/
structure Reading.MadeOf (text : List Char) (reading : Reading) : Prop where
  shape : ∀ token ∈ reading.found, IsWord token ∨ token = newline
  found : ∀ token ∈ reading.found, ∀ c ∈ token.toList, c ∈ text
  solid : ∀ c ∈ reading.word.toList, Text.isBlank c = false
  word : ∀ c ∈ reading.word.toList, c ∈ text

namespace Reading.MadeOf

variable {text : List Char} {reading : Reading}

theorem close (made : reading.MadeOf text) :
    ∀ token ∈ reading.close, (IsWord token ∨ token = newline) ∧ ∀ c ∈ token.toList, c ∈ text := by
  intro token member
  rw [Reading.close] at member
  split at member
  · exact ⟨made.shape token member, made.found token member⟩
  · next filled =>
      rcases List.mem_cons.1 member with rfl | before
      · exact ⟨Or.inl ⟨by simpa using filled, made.solid⟩, made.word⟩
      · exact ⟨made.shape token before, made.found token before⟩

theorem step (made : reading.MadeOf text) {c : Char} (inText : c ∈ text) :
    (reading.step c).MadeOf text := by
  rw [Reading.step]
  split
  · next lineEnd =>
      have isNewline : ∀ d ∈ newline.toList, d ∈ text := by
        intro d inWord
        have same : d = '\n' := by simpa [newline] using inWord
        exact same.trans lineEnd.symm ▸ inText
      refine ⟨?_, ?_, by simp, by simp⟩
      · intro token member
        rcases List.mem_cons.1 member with rfl | before
        · exact Or.inr rfl
        · exact (made.close token before).1
      · intro token member
        rcases List.mem_cons.1 member with rfl | before
        · exact isNewline
        · exact (made.close token before).2
  · split
    · exact ⟨fun token member => (made.close token member).1,
        fun token member => (made.close token member).2, by simp, by simp⟩
    · next notBlank =>
        refine ⟨made.shape, made.found, ?_, ?_⟩
        · intro d inWord
          rw [String.toList_push, List.mem_append, List.mem_singleton] at inWord
          rcases inWord with before | rfl
          · exact made.solid d before
          · simpa using notBlank
        · intro d inWord
          rw [String.toList_push, List.mem_append, List.mem_singleton] at inWord
          rcases inWord with before | rfl
          · exact made.word d before
          · exact inText

theorem foldl (made : reading.MadeOf text) {rest : List Char} (inText : ∀ c ∈ rest, c ∈ text) :
    (rest.foldl Reading.step reading).MadeOf text := by
  induction rest generalizing reading with
  | nil => exact made
  | cons c others inductionHypothesis =>
      exact inductionHypothesis (made.step (inText c List.mem_cons_self))
        fun d member => inText d (List.mem_cons_of_mem _ member)

end Reading.MadeOf

theorem shape_of_mem_ofPadded {text : List Char} :
    ∀ token ∈ ofPadded text, (IsWord token ∨ token = newline) ∧ ∀ c ∈ token.toList, c ∈ text := by
  intro token member
  have start : Reading.MadeOf text ⟨[], ""⟩ := ⟨by simp, by simp, by simp, by simp⟩
  exact (start.foldl fun _ inText => inText).close token (by simpa [ofPadded] using member)

/-- Tokens are made of the characters of the text. -/
theorem mem_of_mem_ofPadded {text : List Char} :
    ∀ token ∈ ofPadded text, ∀ c ∈ token.toList, c ∈ text :=
  fun token member => (shape_of_mem_ofPadded token member).2

/-- Every token is a word or a line end. -/
theorem isWord_or_newline_of_mem {text : List Char} :
    ∀ token ∈ ofPadded text, IsWord token ∨ token = newline :=
  fun token member => (shape_of_mem_ofPadded token member).1

/-! ## Padding -/

@[simp] theorem Padding.pad_append (padding : Padding) (first rest : List Char) :
    padding.pad (first ++ rest) = padding.pad first ++ padding.pad rest := by
  simp [pad]

theorem Padding.pad_cons (padding : Padding) (c : Char) (rest : List Char) :
    padding.pad (c :: rest) = padding.expand c ++ padding.pad rest := by
  simp [pad]

theorem Padding.entries_godot :
    godot.entries = godotMarks.map fun mark => (mark, String.ofList [' ', mark, ' ']) := by
  decide +kernel

/-- Godot marks are set apart by spaces, and everything else stays as it is. -/
theorem Padding.expand_godot (c : Char) :
    godot.expand c = if c ∈ godotMarks then [' ', c, ' '] else [c] := by
  have found : godot.replacement? c =
      if c ∈ godotMarks then some (String.ofList [' ', c, ' ']) else none := by
    rw [replacement?, entries_godot]
    induction godotMarks with
    | nil => simp
    | cons mark marks inductionHypothesis =>
        by_cases same : mark = c
        · simp [same]
        · have other : c ≠ mark := fun equal => same equal.symm
          simpa [same, other] using inductionHypothesis
  rw [expand, found]
  by_cases mark : c ∈ godotMarks
  · simp [mark]
  · simp [mark]

/-! ## Godot texts -/

/-- The tokens of a Godot text, given by its characters. -/
def ofGodot (text : List Char) : List String :=
  ofPadded (Padding.godot.pad text)

theorem ofText_godot (text : String) : ofText Padding.godot text = ofGodot text.toList := rfl

@[simp] theorem ofGodot_nil : ofGodot [] = [] := rfl

theorem ofGodot_append_newline (first rest : List Char) :
    ofGodot (first ++ '\n' :: rest) = ofGodot first ++ newline :: ofGodot rest := by
  have unpadded : Padding.godot.expand '\n' = ['\n'] := by decide +kernel
  rw [ofGodot, Padding.pad_append, Padding.pad_cons, unpadded]
  exact ofPadded_append_newline _ _

theorem solid_of_mem_godotMarks :
    ∀ mark ∈ Padding.godotMarks, Text.isBlank mark = false := by
  have none : Padding.godotMarks.any Text.isBlank = false := by decide
  simpa using none

theorem ofGodot_append_blank (first rest : List Char) {c : Char} (blank : Text.isBlank c = true)
    (inLine : c ≠ '\n') : ofGodot (first ++ c :: rest) = ofGodot first ++ ofGodot rest := by
  have unpadded : Padding.godot.expand c = [c] := by
    rw [Padding.expand_godot, if_neg]
    intro mark
    rw [solid_of_mem_godotMarks c mark] at blank
    exact absurd blank (by decide)
  rw [ofGodot, Padding.pad_append, Padding.pad_cons, unpadded]
  exact ofPadded_append_blank _ _ blank inLine

/-- A Godot mark is a token of its own, wherever it stands. -/
theorem ofGodot_append_mark (first rest : List Char) {mark : Char}
    (isMark : mark ∈ Padding.godotMarks) :
    ofGodot (first ++ mark :: rest) = ofGodot first ++ String.ofList [mark] :: ofGodot rest := by
  have padded : Padding.godot.expand mark = [' ', mark, ' '] := by
    rw [Padding.expand_godot, if_pos isMark]
  have solid : ∀ c ∈ [mark], Text.isBlank c = false := by
    simpa using solid_of_mem_godotMarks mark isMark
  rw [ofGodot, Padding.pad_append, Padding.pad_cons, padded]
  show ofPadded (Padding.godot.pad first ++ ' ' :: ([mark] ++ ' ' :: Padding.godot.pad rest)) = _
  rw [ofPadded_append_blank _ _ (by decide) (by decide),
    ofPadded_append_blank _ _ (by decide) (by decide), ofPadded_solid (by simp) solid]
  rfl

theorem ofGodot_word {word : List Char} (filled : word ≠ [])
    (solid : ∀ c ∈ word, Text.isBlank c = false) (plain : ∀ c ∈ word, c ∉ Padding.godotMarks) :
    ofGodot word = [String.ofList word] := by
  have unpadded : Padding.godot.pad word = word := by
    rw [Padding.pad]
    conv_rhs => rw [← List.flatMap_singleton' word]
    refine List.flatMap_congr ?_
    intro c member
    rw [Padding.expand_godot, if_neg (plain c member)]
  rw [ofGodot, unpadded, ofPadded_solid filled solid]

theorem ofGodot_blanks_append {blanks : List Char} (text : List Char)
    (blank : ∀ c ∈ blanks, Text.isBlank c = true ∧ c ≠ '\n') :
    ofGodot (blanks ++ text) = ofGodot text := by
  induction blanks with
  | nil => rfl
  | cons c rest inductionHypothesis =>
      obtain ⟨head, inLine⟩ := blank c List.mem_cons_self
      have cut := ofGodot_append_blank [] (rest ++ text) head inLine
      rw [List.nil_append, ofGodot_nil, List.nil_append] at cut
      rw [List.cons_append, cut,
        inductionHypothesis fun d member => blank d (List.mem_cons_of_mem _ member)]

/-- No token goes on over a blank. -/
theorem ofGodot_append_of_blank (first rest : List Char) {c : Char}
    (blank : Text.isBlank c = true) :
    ofGodot (first ++ c :: rest) = ofGodot first ++ ofGodot (c :: rest) := by
  by_cases lineEnd : c = '\n'
  · rw [lineEnd, ofGodot_append_newline]
    exact congrArg (ofGodot first ++ ·) (ofGodot_append_newline [] rest).symm
  · rw [ofGodot_append_blank _ _ blank lineEnd]
    exact congrArg (ofGodot first ++ ·) (ofGodot_append_blank [] rest blank lineEnd).symm

theorem ofGodot_suffix_cons {c : Char} (blank : Text.isBlank c = true) (rest : List Char) :
    ofGodot rest <:+ ofGodot (c :: rest) := by
  by_cases lineEnd : c = '\n'
  · rw [lineEnd]
    exact ⟨[newline], (ofGodot_append_newline [] rest).symm⟩
  · exact ⟨[], (ofGodot_append_blank [] rest blank lineEnd).symm⟩

theorem ofGodot_trimStart_suffix (text : List Char) :
    ofGodot (Text.trimStart text) <:+ ofGodot text := by
  induction text with
  | nil => exact List.suffix_refl _
  | cons c rest inductionHypothesis =>
      by_cases blank : Text.isBlank c = true
      · rw [Text.trimStart, List.dropWhile_cons_of_pos blank]
        exact inductionHypothesis.trans (ofGodot_suffix_cons blank rest)
      · have stays : Text.trimStart (c :: rest) = c :: rest := List.dropWhile_cons_of_neg blank
        exact ⟨[], by rw [stays, List.nil_append]⟩

theorem ofGodot_takeWhile_prefix (text : List Char) :
    ofGodot (text.takeWhile fun c => !Text.isBlank c) <+: ofGodot text := by
  have split := List.takeWhile_append_dropWhile (p := fun c => !Text.isBlank c) (l := text)
  have stops := List.head?_dropWhile_not (fun c => !Text.isBlank c) text
  cases after : text.dropWhile fun c => !Text.isBlank c with
  | nil =>
      rw [after, List.append_nil] at split
      exact ⟨[], by rw [split, List.append_nil]⟩
  | cons c more =>
      have blank : Text.isBlank c = true := by simpa [after] using stops
      rw [after] at split
      refine ⟨ofGodot (c :: more), ?_⟩
      rw [← ofGodot_append_of_blank _ _ blank, split]

theorem ofGodot_firstWord {text word : List Char} (found : Text.firstWord text = some word) :
    ofGodot word <:+: ofGodot text := by
  rw [Text.firstWord] at found
  cases shape : Text.trimStart text with
  | nil => simp [shape] at found
  | cons c rest =>
      rw [shape] at found
      obtain rfl := Option.some.inj found
      have inRest := ofGodot_takeWhile_prefix (c :: rest)
      have inText := ofGodot_trimStart_suffix text
      rw [shape] at inText
      exact inRest.isInfix.trans inText.isInfix

/-- The first word of a line gives its first tokens. -/
theorem ofGodot_firstWord_prefix {line word : List Char} (inLine : '\n' ∉ line)
    (found : Text.firstWord line = some word) : ofGodot word <+: ofGodot line := by
  obtain ⟨blanks, blank, split⟩ := Text.trimStart_append line
  have front : ∀ c ∈ blanks, Text.isBlank c = true ∧ c ≠ '\n' := by
    intro c member
    refine ⟨blank c member, ?_⟩
    rintro rfl
    exact inLine (by rw [split]; exact List.mem_append_left _ member)
  have trimmed : ofGodot line = ofGodot (Text.trimStart line) := by
    conv_lhs => rw [split]
    exact ofGodot_blanks_append _ front
  rw [trimmed]
  rw [Text.firstWord] at found
  cases shape : Text.trimStart line with
  | nil => simp [shape] at found
  | cons c rest =>
      rw [shape] at found
      obtain rfl := Option.some.inj found
      exact ofGodot_takeWhile_prefix (c :: rest)

/-- The tokens of lines that come after another one. -/
def ofLines (lines : List (List Char)) : List String :=
  lines.flatMap fun line => newline :: ofGodot line

theorem ofLines_append (first rest : List (List Char)) :
    ofLines (first ++ rest) = ofLines first ++ ofLines rest := by
  simp [ofLines]

/-- The tokens of lines that come before another one. -/
def closedLines (lines : List (List Char)) : List String :=
  lines.flatMap fun line => ofGodot line ++ [newline]

theorem newline_cons_closedLines (lines : List (List Char)) :
    newline :: closedLines lines = ofLines lines ++ [newline] := by
  induction lines with
  | nil => rfl
  | cons line rest inductionHypothesis =>
      have opened : ofLines (line :: rest) = newline :: (ofGodot line ++ ofLines rest) := rfl
      have closed : closedLines (line :: rest) =
          ofGodot line ++ [newline] ++ closedLines rest := rfl
      rw [opened, closed, List.append_assoc, List.singleton_append, inductionHypothesis,
        List.cons_append, List.append_assoc]

/-- Joined lines give the streams of the lines, with a newline between any two. -/
theorem ofGodot_intercalate (line : List Char) (rest : List (List Char)) :
    ofGodot (['\n'].intercalate (line :: rest)) = ofGodot line ++ ofLines rest := by
  induction rest generalizing line with
  | nil => simp [ofLines]
  | cons next others inductionHypothesis =>
      rw [List.intercalate_cons_cons, List.append_assoc, List.singleton_append,
        ofGodot_append_newline, inductionHypothesis]
      simp [ofLines]

/-- The tokens of a line stand between those of the lines around it. -/
theorem ofGodot_intercalate_middle (front : List (List Char)) (line : List Char)
    (rest : List (List Char)) :
    ofGodot (['\n'].intercalate (front ++ line :: rest)) =
      closedLines front ++ (ofGodot line ++ ofLines rest) := by
  cases front with
  | nil => exact ofGodot_intercalate line rest
  | cons first others =>
      have closed : closedLines (first :: others) = ofGodot first ++ newline :: closedLines others :=
        by simp [closedLines]
      have opened : ofLines (line :: rest) = [newline] ++ (ofGodot line ++ ofLines rest) := rfl
      rw [List.cons_append, ofGodot_intercalate, ofLines_append, opened, closed,
        newline_cons_closedLines]
      simp only [List.append_assoc]

end GodotGraph.Token
