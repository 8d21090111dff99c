import GodotGraph.Proofs.Grammar.Declaration
import GodotGraph.Proofs.Text.Squeeze

/-!
Contract: texts that join tokens with blanks.

Owns:
- the texts that join some tokens with runs of blanks, which are those that are squeezed to the
  tokens with single spaces;
- the place of a text between the tokens before it and the tokens after it.

Does not own: how a text is cut into tokens.
-/

set_option autoImplicit false

namespace GodotGraph.Token

/-- The text is the tokens in order, with a run of blanks between any two. -/
inductive Joins : List String → List Char → Prop where
  | last (token : String) : Joins [token] token.toList
  | more (token : String) {others : List String} {gap text : List Char} (filled : gap ≠ [])
      (blank : ∀ c ∈ gap, Text.isBlank c = true) (later : Joins others text) :
      Joins (token :: others) (token.toList ++ (gap ++ text))

/-- The offset of a place in a text: the text before it joins the first tokens, the text after it
the others. -/
def StandsBetween (seen left : List String) (text : List Char) (offset : Nat) : Prop :=
  ∃ read rest, text = read ++ rest ∧ offset = Pattern.byteLength read ∧ Joins seen read ∧
    Joins left rest

/-- Two offsets of two texts that join the same tokens: after the same token, or after the same
characters of a token. -/
def SamePlace (tokens : List String) (first second : List Char) (left right : Nat) : Prop :=
  ∃ before front back after, tokens = before ++ (front ++ back) :: after ∧
    StandsBetween (before ++ [front]) (back :: after) first left ∧
      StandsBetween (before ++ [front]) (back :: after) second right

/-! ## Squeezed texts -/

theorem startsBlank_append_of_isWord {token : String} (isWord : IsWord token) (rest : List Char) :
    Text.startsBlank (token.toList ++ rest) = false := by
  obtain ⟨filled, solid⟩ := isWord
  obtain ⟨c, others, shape⟩ := List.exists_cons_of_ne_nil (mt String.toList_eq_nil_iff.1 filled)
  rw [shape, List.cons_append, Text.startsBlank_cons]
  exact solid c (by simp [shape])

theorem startsBlank_of_joins {tokens : List String} {text : List Char}
    (words : ∀ token ∈ tokens, IsWord token) (joins : Joins tokens text) :
    Text.startsBlank text = false := by
  cases joins with
  | last token =>
      have alone := startsBlank_append_of_isWord (words token (by simp)) []
      rwa [List.append_nil] at alone
  | more token filled blank later =>
      exact startsBlank_append_of_isWord (words token List.mem_cons_self) _

/-- However the tokens are joined, single spaces are left. -/
theorem squeeze_of_joins {tokens : List String} {text : List Char}
    (words : ∀ token ∈ tokens, IsWord token) (joins : Joins tokens text) :
    Text.squeeze text = (join tokens).toList := by
  induction joins with
  | last token =>
      have alone := Text.squeeze_append_of_solid (words token (by simp)).2 []
      rw [List.append_nil] at alone
      rw [alone, toList_join_cons]
      rfl
  | @more token others gap text filled blank later inductionHypothesis =>
      have wordsLater : ∀ other ∈ others, IsWord other :=
        fun other member => words other (List.mem_cons_of_mem _ member)
      have starts : Text.startsBlank (gap ++ text) = true := by
        obtain ⟨c, rest, rfl⟩ := List.exists_cons_of_ne_nil filled
        exact blank c List.mem_cons_self
      have whole : Text.trimStart (gap ++ text) = text := by
        rw [Text.trimStart_append_of_blank blank]
        exact Text.trimStart_of_startsBlank (startsBlank_of_joins wordsLater later)
      rw [Text.squeeze_append_of_solid (words token List.mem_cons_self).2,
        Text.squeeze_of_startsBlank starts, whole, inductionHypothesis wordsLater]
      cases later with
      | last next => simp [toList_join_cons, spaced_cons]
      | more next => simp [toList_join_cons, spaced_cons]

/-- A text that is squeezed to tokens with single spaces joins them. -/
theorem joins_of_squeeze {tokens : List String} {text : List Char} (some : tokens ≠ [])
    (solid : ∀ token ∈ tokens, ∀ c ∈ token.toList, Text.isBlank c = false)
    (squeezed : Text.squeeze text = (join tokens).toList) : Joins tokens text := by
  induction tokens generalizing text with
  | nil => exact absurd rfl some
  | cons token others inductionHypothesis =>
      have solidOthers : ∀ other ∈ others, ∀ c ∈ other.toList, Text.isBlank c = false :=
        fun other member => solid other (List.mem_cons_of_mem _ member)
      rw [toList_join_cons] at squeezed
      obtain ⟨left, rfl, shape⟩ :=
        Text.exists_of_squeeze_eq_append (solid token List.mem_cons_self) squeezed
      cases others with
      | nil =>
          obtain rfl := Text.squeeze_eq_nil_iff.1 shape
          rw [List.append_nil]
          exact .last token
      | cons next rest =>
          have starts : Text.startsBlank left = true := by
            rw [← Text.startsBlank_squeeze, shape, spaced_cons]
            exact Text.isBlank_space
          have gap := List.takeWhile_append_dropWhile (p := Text.isBlank) (l := left)
          have filled : left.takeWhile Text.isBlank ≠ [] := by
            cases left with
            | nil => simp [Text.startsBlank] at starts
            | cons c more => simp [show Text.isBlank c = true from starts]
          rw [Text.squeeze_of_startsBlank starts, spaced_cons, List.cons.injEq,
            ← toList_join_cons] at shape
          rw [← gap]
          exact .more token filled (fun c member => List.mem_takeWhile_imp member)
            (inductionHypothesis (by simp) solidOthers shape.2)

/-! ## Places -/

/-- A cut of some tokens with single spaces is one of the tokens, or of one of them. -/
theorem exists_of_join_eq_append {tokens : List String} {read rest : List Char}
    (some : tokens ≠ []) (shape : (join tokens).toList = read ++ rest) :
    ∃ before front back after, tokens = before ++ (front ++ back) :: after ∧
      read = (join (before ++ [front])).toList ∧ rest = (join (back :: after)).toList := by
  induction tokens generalizing read with
  | nil => exact absurd rfl some
  | cons token others inductionHypothesis =>
      rw [toList_join_cons] at shape
      rcases List.append_eq_append_iff.1 shape with
        ⟨more, isRead, isSpaced⟩ | ⟨more, isToken, isRest⟩
      · cases more with
        | nil =>
            refine ⟨[], token, "", others, by simp, ?_, ?_⟩
            · simp [isRead, toList_join_cons]
            · rw [toList_join_cons, ← List.nil_append rest, ← isSpaced]
              rfl
        | cons c after =>
            cases others with
            | nil => simp at isSpaced
            | cons next later =>
                rw [spaced_cons, List.cons_append, List.cons.injEq, ← toList_join_cons] at isSpaced
                obtain ⟨isSpace, isJoin⟩ := isSpaced
                obtain ⟨before, front, back, last, split, isAfter, isLeft⟩ :=
                  inductionHypothesis (by simp) isJoin
                refine ⟨token :: before, front, back, last, by rw [split]; rfl, ?_, isLeft⟩
                rw [isRead, ← isSpace, isAfter, List.cons_append, toList_join_cons]
                cases before with
                | nil => simp [toList_join_cons, spaced_cons]
                | cons head tail => simp [toList_join_cons, spaced_cons]
      · refine ⟨[], String.ofList read, String.ofList more, others, ?_, ?_, ?_⟩
        · rw [List.nil_append, ← String.ofList_append, ← isToken, String.ofList_toList]
        · simp [toList_join_cons]
        · rw [isRest, toList_join_cons, String.toList_ofList]

/-- Places outside the runs of blanks are the same if the same is left of the squeezed texts. -/
theorem samePlace_of_lands {tokens : List String} (words : ∀ token ∈ tokens, IsWord token)
    {first second readFirst readSecond restFirst restSecond : List Char}
    (joinsFirst : Joins tokens first) (joinsSecond : Joins tokens second)
    (shapeFirst : first = readFirst ++ restFirst) (shapeSecond : second = readSecond ++ restSecond)
    (apartFirst : Text.Apart readFirst restFirst) (apartSecond : Text.Apart readSecond restSecond)
    (same : Text.squeeze restFirst = Text.squeeze restSecond) :
    SamePlace tokens first second (Pattern.byteLength readFirst)
      (Pattern.byteLength readSecond) := by
  have whole := squeeze_of_joins words joinsFirst
  have wholeSecond := squeeze_of_joins words joinsSecond
  rw [shapeFirst, Text.squeeze_append apartFirst] at whole
  rw [shapeSecond, Text.squeeze_append apartSecond, ← whole, same,
    List.append_cancel_right_eq] at wholeSecond
  have filled : tokens ≠ [] := by
    rintro rfl
    cases joinsFirst
  obtain ⟨before, front, back, after, rfl, isRead, isRest⟩ :=
    exists_of_join_eq_append filled whole.symm
  have solid : ∀ token ∈ before ++ (front ++ back) :: after, ∀ c ∈ token.toList,
      Text.isBlank c = false := fun token member => (words token member).2
  have solidSeen : ∀ token ∈ before ++ [front], ∀ c ∈ token.toList, Text.isBlank c = false := by
    intro token member c inside
    rcases List.mem_append.1 member with early | isFront
    · exact solid token (by simp [early]) c inside
    · obtain rfl := List.mem_singleton.1 isFront
      exact solid (token ++ back) (by simp) c (by simp [inside])
  have solidLeft : ∀ token ∈ back :: after, ∀ c ∈ token.toList, Text.isBlank c = false := by
    intro token member c inside
    rcases List.mem_cons.1 member with rfl | late
    · exact solid (front ++ token) (by simp) c (by simp [inside])
    · exact solid token (by simp [late]) c inside
  refine ⟨before, front, back, after, rfl, ⟨readFirst, restFirst, shapeFirst, rfl, ?_, ?_⟩,
    ⟨readSecond, restSecond, shapeSecond, rfl, ?_, ?_⟩⟩
  · exact joins_of_squeeze (by simp) solidSeen isRead
  · exact joins_of_squeeze (by simp) solidLeft isRest
  · exact joins_of_squeeze (by simp) solidSeen (wholeSecond.trans isRead)
  · exact joins_of_squeeze (by simp) solidLeft (same.symm.trans isRest)

end GodotGraph.Token
