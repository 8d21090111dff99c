import GodotGraph.Proofs.Grammar.Header

/-!
Contract: which tokens the names and parents of headers come from.

Owns:
- the words of a stream, and the places inside or behind one of them;
- keywords and identifiers as readings of whole words and of the fronts of words;
- the word behind a captured name or parent, and when the capture is all of it.

An identifier ends at the first character that cannot be in one, be that the end of its token
or not. No grammar asks what comes then, so a capture may be the front of a longer token.

Does not own: what becomes of a capture.
-/

set_option autoImplicit false

namespace GodotGraph

namespace Token

/-- The tokens that are no line ends. -/
def words (tokens : List String) : List String :=
  tokens.filter fun token => token ≠ newline

theorem words_word_cons {token : String} (isWord : IsWord token) (rest : List String) :
    words (token :: rest) = token :: words rest := by
  have other : token ≠ newline := by
    rintro rfl
    exact absurd isWord (by decide)
  simp [words, other]

theorem words_newline_cons (rest : List String) : words (newline :: rest) = words rest := by
  simp [words]

theorem words_isPrefix {front whole : List String} (starts : front <+: whole) :
    words front <+: words whole :=
  starts.filter _

end Token

namespace Grammar

open Pattern (endsWord)
open Token (IsWord newline spaced words)

/-! ## Words at a place -/

/-- The blanks before the first word are skipped, line ends among them. -/
theorem trimStart_spaced_words {tokens : List String}
    (readable : ∀ token ∈ tokens, IsWord token ∨ token = newline) :
    (words tokens = [] ∧ Text.trimStart (spaced tokens) = []) ∨
      ∃ word tail, words tokens = word :: words tail ∧ IsWord word ∧ tail <:+ tokens ∧
        Text.trimStart (spaced tokens) = word.toList ++ spaced tail := by
  induction tokens with
  | nil => exact Or.inl ⟨rfl, rfl⟩
  | cons token rest inductionHypothesis =>
      rcases readable token List.mem_cons_self with isWord | rfl
      · exact Or.inr ⟨token, rest, Token.words_word_cons isWord rest, isWord,
          List.suffix_cons token rest, Token.trimStart_spaced isWord rest⟩
      · rw [Token.words_newline_cons, Token.trimStart_spaced_newline]
        rcases inductionHypothesis fun other inside => readable other (List.mem_cons_of_mem _ inside)
          with nothing | ⟨word, tail, split, isWord, ends, start⟩
        · exact Or.inl nothing
        · exact Or.inr ⟨word, tail, split, isWord, ends.trans (List.suffix_cons _ _), start⟩

/-- A place inside or behind a word: what is left of the word starts with no character of a name,
and some tokens come after it. -/
structure Place (text left : List Char) (tokens : List String) : Prop where
  shape : text = left ++ spaced tokens
  solid : ∀ c ∈ left, Text.isBlank c = false
  stops : ∀ c ∈ left.head?, continuesName c = false
  readable : ∀ token ∈ tokens, IsWord token ∨ token = newline

theorem stops_of_takeName? {text name rest : List Char}
    (taken : takeName? text = some (name, rest)) : ∀ c ∈ rest.head?, continuesName c = false := by
  cases text with
  | nil => simp [takeName?] at taken
  | cons first others =>
      simp only [takeName?, Option.ite_none_left_eq_some, Option.ite_none_right_eq_some,
        Option.some.injEq, Prod.mk.injEq] at taken
      obtain ⟨-, -, -, rfl⟩ := taken
      have stop := List.head?_dropWhile_not continuesName others
      intro c isHead
      rw [Option.mem_def] at isHead
      rw [isHead] at stop
      exact stop

/-- A name is all of a token if nothing in the token ends it earlier. -/
theorem eq_of_nameOf? {token name : String} (named : nameOf? token = some name) :
    name = token ↔ ∀ c ∈ token.toList, continuesName c = true := by
  obtain ⟨⟨letters, rest⟩, taken, rfl⟩ := Option.map_eq_some_iff.1 named
  obtain ⟨shape, -, continues⟩ := takeName?_eq_some taken
  constructor
  · intro whole c inside
    rw [← whole, String.toList_ofList] at inside
    exact continues c inside
  · intro all
    cases rest with
    | nil => exact String.toList_injective (by rw [shape, String.toList_ofList, List.append_nil])
    | cons c others =>
        have stop := stops_of_takeName? taken c rfl
        have goesOn := all c (by rw [shape]; simp)
        rw [stop] at goesOn
        cases goesOn

theorem ne_nil_of_mem_reservedWords : ∀ word ∈ reservedWords, word.toList ≠ [] := by
  decide

namespace Place

variable {text left rest name : List Char} {tokens : List String} {word : String}

theorem ofSpaced (readable : ∀ token ∈ tokens, IsWord token ∨ token = newline) :
    Place (spaced tokens) [] tokens :=
  ⟨rfl, by simp, by simp, readable⟩

/-- Nothing that starts like a name is read in the middle of a word. -/
theorem left_eq_nil (place : Place text left tokens) {c : Char} {others : List Char}
    (start : Text.trimStart text = c :: others) (letter : continuesName c = true) : left = [] := by
  cases left with
  | nil => rfl
  | cons d more =>
      have shape := place.shape
      rw [shape, List.cons_append, Text.trimStart_cons_of_solid (place.solid d List.mem_cons_self),
        List.cons.injEq] at start
      have stop := place.stops d rfl
      rw [start.1, letter] at stop
      cases stop

/-- The identifier at a place is the front of the next word. -/
theorem takeName? (place : Place text left tokens)
    (taken : takeName? (Text.trimStart text) = some (name, rest)) :
    left = [] ∧ ∃ token more tail, words tokens = token :: words tail ∧
      nameOf? token = some (String.ofList name) ∧ Place rest more tail := by
  obtain ⟨split, filled, letters⟩ := takeName?_eq_some taken
  obtain ⟨c, others, rfl⟩ := List.exists_cons_of_ne_nil filled
  obtain rfl := place.left_eq_nil split (letters c List.mem_cons_self)
  have shape := place.shape
  rw [List.nil_append] at shape
  rcases trimStart_spaced_words place.readable with
    ⟨-, blank⟩ | ⟨token, tail, inWords, isWord, ends, start⟩
  · rw [shape, blank] at split
    cases split
  · have tokenFilled : token.toList ≠ [] := fun empty =>
      isWord.1 (String.toList_eq_nil_iff.1 empty)
    rw [shape, start, takeName?_append tokenFilled (Token.endsWord_spaced tail)] at taken
    obtain ⟨⟨front, more⟩, inToken, same⟩ := Option.map_eq_some_iff.1 taken
    obtain ⟨rfl, rfl⟩ := Prod.mk.inj same
    have tokenSplit := (takeName?_eq_some inToken).1
    refine ⟨rfl, token, more, tail, inWords, ?_, rfl, ?_, stops_of_takeName? inToken, ?_⟩
    · rw [nameOf?, inToken]
      rfl
    · intro d inside
      exact isWord.2 d (by rw [tokenSplit]; exact List.mem_append_right _ inside)
    · exact fun other inside => place.readable other (ends.subset inside)

/-- A keyword at a place is the front of the next word. -/
theorem afterKeyword? (place : Place text left tokens) (reserved : word ∈ reservedWords)
    (after : afterKeyword? word.toList (Text.trimStart text) = some rest) :
    left = [] ∧ ∃ more tail, words tokens = String.ofList (word.toList ++ more) :: words tail ∧
      Place rest more tail := by
  have letters := letters_of_mem_reservedWords word reserved
  have starts := after
  simp only [Grammar.afterKeyword?, Option.ite_none_right_eq_some, Bool.and_eq_true,
    List.isPrefixOf_iff_prefix, Option.some.injEq] at starts
  obtain ⟨⟨⟨behind, split⟩, boundary⟩, dropped⟩ := starts
  rw [← split, List.drop_left] at dropped boundary
  subst dropped
  obtain ⟨c, others, form⟩ := List.exists_cons_of_ne_nil (ne_nil_of_mem_reservedWords word reserved)
  have begins : Text.trimStart text = c :: (others ++ behind) := by rw [← split, form]; rfl
  obtain rfl := place.left_eq_nil begins (letters c (by simp [form]))
  have shape := place.shape
  rw [List.nil_append] at shape
  rcases trimStart_spaced_words place.readable with
    ⟨-, blank⟩ | ⟨token, tail, inWords, isWord, ends, start⟩
  · rw [shape, blank] at begins
    cases begins
  · have inToken : (Grammar.afterKeyword? word.toList token.toList).isSome = true := by
      rw [← isSome_afterKeyword?_append
        (fun d inside => continuesIdentifier_of_continuesName (letters d inside))
        (Token.endsWord_spaced tail), ← start, ← shape, after]
      rfl
    obtain ⟨⟨more, tokenSplit⟩, -⟩ : word.toList <+: token.toList ∧ _ := by
      simpa [Grammar.afterKeyword?] using inToken
    have restShape : behind = more ++ spaced tail := by
      have whole : word.toList ++ behind = word.toList ++ (more ++ spaced tail) := by
        rw [split, shape, start, ← tokenSplit, List.append_assoc]
      exact List.append_cancel_left whole
    refine ⟨rfl, more, tail, ?_, restShape, ?_, ?_, ?_⟩
    · rw [tokenSplit, String.ofList_toList]
      exact inWords
    · intro d inside
      exact isWord.2 d (by rw [← tokenSplit]; exact List.mem_append_right _ inside)
    · intro d isHead
      cases more with
      | nil => cases isHead
      | cons e others =>
          cases isHead
          rw [restShape, List.cons_append, endsWord, Bool.not_eq_true'] at boundary
          by_contra continues
          have goesOn := continuesIdentifier_of_continuesName (by simpa using continues)
          rw [boundary] at goesOn
          cases goesOn
    · exact fun other inside => place.readable other (ends.subset inside)

/-- A keyword that declares something is a word of its own, and what it declares is the front of
the word after it. -/
theorem declared? (place : Place text left tokens) (reserved : word ∈ reservedWords)
    (declares : declared? word.toList text = some (name, rest)) :
    left = [] ∧ ∃ token more tail, words tokens = word :: token :: words tail ∧
      nameOf? token = some (String.ofList name) ∧ Place rest more tail := by
  obtain ⟨behind, after, taken⟩ := Option.bind_eq_some_iff.1 declares
  obtain ⟨isStart, more, tail, first, next⟩ := place.afterKeyword? reserved after
  obtain ⟨rfl, token, left, later, second, named, last⟩ := next.takeName? taken
  refine ⟨isStart, token, left, later, ?_, named, last⟩
  rw [first, second, List.append_nil, String.ofList_toList]

end Place

/-! ## Captured names -/

/-- The words that come before a name or a parent, from the start of the window. -/
inductive Introduces : List String → String → Prop where
  | parent (before : List String) : Introduces (before ++ [extendsKeyword]) parentCapture
  | script : Introduces [classNameKeyword] nameCapture
  | inner : Introduces [classKeyword] nameCapture
  | innerAfterParent (parent : String) :
      Introduces [classKeyword, extendsKeyword, parent] nameCapture

/-- The capture is the front of a word, which stands where names or parents are declared. -/
def ComesFrom (tokens : List String) (capture : Pattern.Capture) : Prop :=
  ∃ front token back, words tokens = front ++ token :: back ∧ Introduces front capture.name ∧
    nameOf? token = some capture.value

theorem ComesFrom.extend {front whole : List String} {capture : Pattern.Capture}
    (comes : ComesFrom front capture) (starts : front <+: whole) : ComesFrom whole capture := by
  obtain ⟨before, token, back, split, introduces, named⟩ := comes
  obtain ⟨more, later⟩ := Token.words_isPrefix starts
  refine ⟨before, token, back ++ more, ?_, introduces, named⟩
  rw [← later, split]
  simp

theorem comesFrom_of_declaration {word capture : String} {tokens : List String}
    (readable : ∀ token ∈ tokens, IsWord token ∨ token = newline) (reserved : word ∈ reservedWords)
    (introduces : Introduces [word] capture) {found : Pattern.Reading} {text : List Char}
    (start : Text.trimStart text = Text.trimStart (spaced tokens))
    (read : (declaration word capture).reader text = .ok found) :
    ∀ captured ∈ found.captures, ComesFrom tokens captured := by
  have reads := declaration_reads word capture text
  rw [read] at reads
  cases declares : declared? word.toList text with
  | none => simp [declares, Reads] at reads
  | some pair =>
      simp only [declares, Option.map_some, Reads, Except.ok.injEq] at reads
      have spacedDeclares : declared? word.toList (spaced tokens) = some pair := by
        rw [← declares, declared?, declared?, start]
      obtain ⟨-, token, more, tail, split, named, -⟩ :=
        (Place.ofSpaced readable).declared? reserved spacedDeclares
      intro captured inside
      rw [reads, List.mem_singleton] at inside
      subst inside
      exact ⟨[word], token, words tail, split, introduces, named⟩

theorem comesFrom_of_classHeader {tokens : List String}
    (readable : ∀ token ∈ tokens, IsWord token ∨ token = newline)
    {found : Pattern.Reading} {text : List Char}
    (start : Text.trimStart text = Text.trimStart (spaced tokens))
    (read : classHeader.pattern.reader text = .ok found) :
    ∀ captured ∈ found.captures, ComesFrom tokens captured := by
  obtain ⟨rest, group, after, grouped, captures, -⟩ := classHeader_reader_ok read
  rw [start] at after
  have classReserved : classKeyword ∈ reservedWords := by decide
  have extendsReserved : extendsKeyword ∈ reservedWords := by decide
  obtain ⟨-, more, tail, first, place⟩ :=
    (Place.ofSpaced readable).afterKeyword? classReserved after
  have shape := headerCaptures_of_reads grouped
  rw [captures]
  generalize group.captures = trail at shape
  cases shape with
  | name taken =>
      obtain ⟨rfl, token, _, behind, second, named, -⟩ := place.takeName? taken
      rw [second, List.append_nil, String.ofList_toList] at first
      simp only [List.mem_singleton, forall_eq]
      exact ⟨[classKeyword], token, _, first, .inner, named⟩
  | nameAndParent taken declares =>
      obtain ⟨rfl, token, _, behind, second, named, next⟩ := place.takeName? taken
      obtain ⟨-, parent, _, last, third, inherits, -⟩ := next.declared? extendsReserved declares
      rw [second, third, List.append_nil, String.ofList_toList] at first
      simp only [List.mem_cons, List.not_mem_nil, or_false, forall_eq_or_imp, forall_eq]
      exact ⟨⟨[classKeyword], token, _, first, .inner, named⟩,
        ⟨[classKeyword, token] ++ [extendsKeyword], parent, _, first, .parent _, inherits⟩⟩
  | parentAndName declares taken =>
      obtain ⟨rfl, parent, _, behind, second, inherits, next⟩ :=
        place.declared? extendsReserved declares
      obtain ⟨-, token, _, last, third, named, -⟩ := next.takeName? taken
      rw [second, third, List.append_nil, String.ofList_toList] at first
      simp only [List.mem_cons, List.not_mem_nil, or_false, forall_eq_or_imp, forall_eq]
      exact ⟨⟨[classKeyword] ++ [extendsKeyword], parent, _, first, .parent _, inherits⟩,
        ⟨[classKeyword, extendsKeyword, parent], token, _, first, .innerAfterParent parent, named⟩⟩

/-- The grammars that capture names and parents. -/
def headerGrammars : List Grammar := [classIdentity, inheritance, classHeader, entityHeader]

theorem comesFrom_of_read {grammar : Grammar} (isHeader : grammar ∈ headerGrammars)
    {tokens : List String} (readable : ∀ token ∈ tokens, IsWord token ∨ token = newline)
    {found : Pattern.Reading} {text : List Char}
    (start : Text.trimStart text = Text.trimStart (spaced tokens))
    (read : grammar.pattern.reader text = .ok found) :
    ∀ captured ∈ found.captures, ComesFrom tokens captured := by
  simp only [headerGrammars, List.mem_cons, List.not_mem_nil, or_false] at isHeader
  rcases isHeader with rfl | rfl | rfl | rfl
  · exact comesFrom_of_declaration readable (by decide) .script start read
  · exact comesFrom_of_declaration readable (by decide) (.parent []) start read
  · exact comesFrom_of_classHeader readable start read
  · exact comesFrom_of_declaration readable (by decide) .inner start read

/-- In every window of a source, a name or a parent that is captured comes from the word that the
header declares it with: from the front of that word, and from all of it if and only if every
character of the word is one that a name may go on with. -/
theorem capture_is_whole_iff {text : String} {window : Token.Window}
    (inSource : window ∈ Token.windows (Token.ofSource text)) {grammar : Grammar}
    (isHeader : grammar ∈ headerGrammars) {found : Match}
    (matched : grammar.parseWindow window = .ok found) :
    ∀ capture ∈ found.captures, ∃ front token back,
      words (window.anchor :: window.following) = front ++ token :: back ∧
        Introduces front capture.name ∧ nameOf? token = some capture.value ∧
          (capture.value = token ↔ ∀ c ∈ token.toList, continuesName c = true) := by
  have ends := Token.suffix_of_mem_windowsFrom inSource
  have cut : window.anchor :: Token.within grammar.terminal window.following <+:
      window.anchor :: window.following := by
    refine List.cons_prefix_cons.2 ⟨rfl, ?_⟩
    cases grammar.terminal with
    | none => exact List.prefix_rfl
    | some terminal => exact Token.through_isPrefix terminal window.following
  have readable : ∀ token ∈ window.anchor :: Token.within grammar.terminal window.following,
      IsWord token ∨ token = newline := fun token inside =>
    Token.isWord_or_newline_of_mem token (ends.subset (cut.subset inside))
  obtain ⟨rest, read⟩ := reader_of_parse_ok matched
  intro capture inside
  obtain ⟨front, token, back, split, introduces, named⟩ :=
    (comesFrom_of_read isHeader readable (trimStart_join _ _) read capture inside).extend cut
  exact ⟨front, token, back, split, introduces, named, eq_of_nameOf? named⟩

/-- A class whose name is a whole word and whose parent is the front of one. -/
theorem capture_is_whole_iff_dotted :
    (⟨0, "class", ["Inner", "extends", "Outer.Base", ":", "\n"]⟩ : Token.Window) ∈
        Token.windows (Token.ofSource "class Inner extends Outer.Base:\n") ∧
      classHeader.parseWindow ⟨0, "class", ["Inner", "extends", "Outer.Base", ":", "\n"]⟩ =
        .ok ⟨[⟨"name", "Inner"⟩, ⟨"parent", "Outer"⟩], 31⟩ ∧
      ∀ capture ∈ ([⟨"name", "Inner"⟩, ⟨"parent", "Outer"⟩] : Pattern.Trail),
        ∃ front token back,
          ["class", "Inner", "extends", "Outer.Base", ":"] = front ++ token :: back ∧
            Introduces front capture.name ∧ nameOf? token = some capture.value ∧
              (capture.value = token ↔ ∀ c ∈ token.toList, continuesName c = true) := by
  have inSource : (⟨0, "class", ["Inner", "extends", "Outer.Base", ":", "\n"]⟩ : Token.Window) ∈
      Token.windows (Token.ofSource "class Inner extends Outer.Base:\n") := by decide +kernel
  have matched : classHeader.parseWindow
      ⟨0, "class", ["Inner", "extends", "Outer.Base", ":", "\n"]⟩ =
        .ok ⟨[⟨"name", "Inner"⟩, ⟨"parent", "Outer"⟩], 31⟩ := by decide +kernel
  exact ⟨inSource, matched, capture_is_whole_iff inSource (by simp [headerGrammars]) matched⟩

/-- The parent that is captured need not be a token of the source. -/
theorem parent_is_front_of_token :
    ¬ ∀ (text : String) (window : Token.Window) (grammar : Grammar) (found : Match),
      window ∈ Token.windows (Token.ofSource text) → grammar ∈ headerGrammars →
        grammar.parseWindow window = .ok found →
          ∀ capture ∈ found.captures, capture.value ∈ Token.ofSource text := by
  intro whole
  have matched : inheritance.parseWindow ⟨3, "extends", ["Outer.Inner", "\n"]⟩ =
      .ok ⟨[⟨"parent", "Outer"⟩], 13⟩ := by decide +kernel
  have isToken := whole "class_name Foo\nextends Outer.Inner\n" _ _ _ (by decide +kernel)
    (by simp [headerGrammars]) matched ⟨"parent", "Outer"⟩ (by simp)
  exact absurd isToken (by decide +kernel)

end Grammar

end GodotGraph
