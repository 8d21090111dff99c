import GodotGraph.Proofs.Grammar.WholeNames
import GodotGraph.Proofs.Pattern.Spacing
import GodotGraph.Proofs.Token.Cut
import Mathlib.Data.List.Chain

/-!
Contract: tokens spread over a text.

Owns:
- texts with some tokens in order and any runs of blanks between them, also none;
- the words of the stream of such a text, which are the tokens again;
- words at a place of a text, which are found there whatever blanks stand between them.

Does not own: texts in which the tokens have to be kept apart by blanks.

A line end between two tokens is a token of the stream, but no word of it.
-/

set_option autoImplicit false

namespace GodotGraph.Token

/-- The text is the tokens in order, with any run of blanks between two of them, or none. -/
inductive Spread : List String → List Char → Prop where
  | last (token : String) : Spread [token] token.toList
  | more (token : String) {others : List String} {gap text : List Char}
      (blank : ∀ c ∈ gap, Text.isBlank c = true) (later : Spread others text) :
      Spread (token :: others) (token.toList ++ (gap ++ text))

/-- The tokens stay apart when nothing is between them: a break ends the first or starts the
second. -/
def Apart (first second : String) : Prop :=
  (∀ c ∈ first.toList.getLast?, isBreak c = true) ∨ ∀ c ∈ second.toList.head?, isBreak c = true

theorem apart_of_isBreak_left {c : Char} (breaks : isBreak c = true) (token : String) :
    Apart (String.ofList [c]) token :=
  Or.inl (by simpa using breaks)

theorem apart_of_isBreak_right {c : Char} (breaks : isBreak c = true) (token : String) :
    Apart token (String.ofList [c]) :=
  Or.inr (by simpa using breaks)

/-! ## Streams -/

theorem words_append (first second : List String) :
    words (first ++ second) = words first ++ words second :=
  List.filter_append first second

/-- Blanks are no words. -/
theorem words_of_blanks {gap : List Char} (blank : ∀ c ∈ gap, Text.isBlank c = true) :
    words (ofGodot gap) = [] := by
  induction gap with
  | nil => rfl
  | cons c rest inductionHypothesis =>
      have later := inductionHypothesis fun d member => blank d (List.mem_cons_of_mem c member)
      by_cases lineEnd : c = '\n'
      · have cut := ofGodot_append_newline [] rest
        rw [List.nil_append, ofGodot_nil, List.nil_append] at cut
        rw [lineEnd, cut, words_newline_cons, later]
      · have cut := ofGodot_append_blank [] rest (blank c List.mem_cons_self) lineEnd
        rw [List.nil_append, ofGodot_nil, List.nil_append] at cut
        rw [cut, later]

theorem isBreak_of_isBlank {c : Char} (blank : Text.isBlank c = true) : isBreak c = true := by
  simp [isBreak, blank]

/-- Tokens that are written with a run of blanks behind each but the last. -/
theorem spread_of_gaps (written : List (String × List Char)) (last : String)
    (blank : (written.all fun entry => entry.2.all Text.isBlank) = true) :
    Spread (written.map Prod.fst ++ [last])
      (written.flatMap (fun entry => entry.1.toList ++ entry.2) ++ last.toList) := by
  induction written with
  | nil => exact .last last
  | cons entry others inductionHypothesis =>
      rw [List.all_cons, Bool.and_eq_true] at blank
      have whole := Spread.more entry.1 (List.all_eq_true.1 blank.1) (inductionHypothesis blank.2)
      simpa [List.append_assoc] using whole

/-- A spread text starts with its first token. -/
theorem Spread.head? {token : String} {others : List String} {text : List Char}
    (spread : Spread (token :: others) text) (filled : token ≠ "") :
    text.head? = token.toList.head? := by
  have filledLetters : token.toList ≠ [] := mt String.toList_eq_nil_iff.1 filled
  cases spread with
  | last => rfl
  | more _ blank later => exact List.head?_append_of_ne_nil _ filledLetters

/-- The words of a spread text are the tokens. -/
theorem words_of_spread {tokens : List String} {text : List Char} (spread : Spread tokens text)
    (isWord : ∀ token ∈ tokens, IsWord token)
    (whole : ∀ token ∈ tokens, ofGodot token.toList = [token]) (apart : tokens.IsChain Apart) :
    words (ofGodot text) = tokens := by
  induction spread with
  | last token =>
      rw [whole token List.mem_cons_self, words_word_cons (isWord token List.mem_cons_self)]
      rfl
  | @more token others gap text blank later inductionHypothesis =>
      have wordsLater := inductionHypothesis
        (fun other member => isWord other (List.mem_cons_of_mem _ member))
        (fun other member => whole other (List.mem_cons_of_mem _ member)) apart.tail
      -- The text can be cut behind the token and behind the gap.
      have cutGap : ofGodot (gap ++ text) = ofGodot gap ++ ofGodot text := by
        apply ofGodot_append_of_getLast?
        intro c isLast
        exact isBreak_of_isBlank (blank c (List.mem_of_getLast? isLast))
      have cutToken : ofGodot (token.toList ++ (gap ++ text)) =
          ofGodot token.toList ++ ofGodot (gap ++ text) := by
        cases gap with
        | cons c rest =>
            apply ofGodot_append_of_head?
            intro d isHead
            have same : c = d := by simpa using isHead
            rw [← same]
            exact isBreak_of_isBlank (blank c List.mem_cons_self)
        | nil =>
            cases others with
            | nil => cases later
            | cons next more =>
                rcases apart.rel with ends | starts
                · exact ofGodot_append_of_getLast? ends _
                · apply ofGodot_append_of_head?
                  rw [List.nil_append, later.head? (isWord next (by simp)).1]
                  exact starts
      rw [cutToken, cutGap, whole token List.mem_cons_self, List.singleton_append,
        words_word_cons (isWord token List.mem_cons_self), words_append, words_of_blanks blank,
        wordsLater, List.nil_append]

/-- Only line ends stand before the first word. -/
theorem exists_of_words_eq_cons {tokens others : List String} {word : String}
    (shape : words tokens = word :: others) :
    ∃ front following, tokens = front ++ word :: following ∧ (∀ token ∈ front, token = newline) ∧
      words following = others := by
  obtain ⟨front, following, split, lineEnds, -, later⟩ := List.filter_eq_cons_iff.1 shape
  exact ⟨front, following, split, fun token member => by simpa using lineEnds token member, later⟩

/-! ## Words at a place -/

/-- The words come next, with any blanks before each of them. -/
def Strewn : List String → List Char → Prop
  | [], _ => True
  | word :: others, text =>
      ∃ tail, Text.trimStart text = word.toList ++ tail ∧ Strewn others tail

theorem Strewn.of_trimStart {tokens : List String} {text other : List Char}
    (strewn : Strewn tokens text) (same : Text.trimStart other = Text.trimStart text) :
    Strewn tokens other := by
  cases tokens with
  | nil => trivial
  | cons word others =>
      obtain ⟨tail, start, later⟩ := strewn
      exact ⟨tail, same.trans start, later⟩

/-- The words of some tokens are strewn over the spaced tokens. -/
theorem strewn_spaced {tokens : List String}
    (shape : ∀ token ∈ tokens, IsWord token ∨ token = newline) :
    Strewn (words tokens) (spaced tokens) := by
  induction tokens with
  | nil => trivial
  | cons token others inductionHypothesis =>
      have later := inductionHypothesis fun other member => shape other (List.mem_cons_of_mem _ member)
      rcases shape token List.mem_cons_self with isWord | rfl
      · rw [words_word_cons isWord]
        exact ⟨spaced others, trimStart_spaced isWord others, later⟩
      · rw [words_newline_cons]
        exact later.of_trimStart (trimStart_spaced_newline others)

/-- What holds of no blank and not of the first character of a word does not hold of the character
that comes next. -/
theorem Strewn.stops {word : String} {others : List String} {text : List Char}
    (strewn : Strewn (word :: others) text) {fact : Char → Bool}
    (noBlank : ∀ c, Text.isBlank c = true → fact c = false) (filled : word ≠ "")
    (noStart : word.toList.head?.any fact = false) : ∀ c ∈ text.head?, fact c = false := by
  obtain ⟨tail, start, -⟩ := strewn
  have filledLetters : word.toList ≠ [] := mt String.toList_eq_nil_iff.1 filled
  intro c isHead
  by_cases blank : Text.isBlank c = true
  · exact noBlank c blank
  · cases text with
    | nil => simp at isHead
    | cons d rest =>
        obtain rfl : d = c := by simpa using isHead
        have solid : Text.isBlank d = false := by simpa using blank
        rw [Text.trimStart_cons_of_solid solid] at start
        have first : word.toList.head? = some d := by
          rw [← List.head?_append_of_ne_nil _ filledLetters, ← start]
          rfl
        rwa [first] at noStart

end GodotGraph.Token
