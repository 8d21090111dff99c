import GodotGraph.Proofs.Grammar.Declaration
import GodotGraph.Proofs.Pattern.Consumption

/-!
Contract: the two readings of a class header beside each other.

Owns:
- the first word after the keyword, which decides alone what the entity header reads;
- class headers that name the parent before the class, which only the class header reads;
- the letters of the names in a class header;
- the colon, which only the class header has to reach.

Does not own: which part of a script the two grammars are given.
-/

set_option autoImplicit false

namespace GodotGraph

namespace Token

theorem trimStart_spaced_newline (rest : List String) :
    Text.trimStart (spaced (newline :: rest)) = Text.trimStart (spaced rest) := by
  rw [spaced_cons]
  rfl

/-- The first token that is no line end. -/
def firstWord? (tokens : List String) : Option String :=
  tokens.find? fun token => token ≠ newline

theorem firstWord?_newline_cons (rest : List String) :
    firstWord? (newline :: rest) = firstWord? rest := by
  simp [firstWord?]

theorem firstWord?_word_cons {token : String} (isWord : IsWord token) (rest : List String) :
    firstWord? (token :: rest) = some token := by
  have other : token ≠ newline := by
    rintro rfl
    exact absurd isWord (by decide)
  simp [firstWord?, other]

theorem firstWord?_of_prefix {front whole : List String} {word : String} (starts : front <+: whole)
    (found : firstWord? front = some word) : firstWord? whole = some word := by
  obtain ⟨rest, rfl⟩ := starts
  rw [firstWord?] at found
  rw [firstWord?, List.find?_append, found]
  rfl

end Token

namespace Grammar

open Pattern (Reader Reading endsWord)
open Token (IsWord newline spaced firstWord?)

/-! ## The first word after the keyword -/

/-- A window with a word in it starts with its first word, as far as a grammar can tell. -/
theorem trimStart_spaced_through {tokens : List String}
    (readable : ∀ token ∈ tokens, IsWord token ∨ token = newline) :
    (firstWord? tokens = none ∧ Text.trimStart (spaced (Token.through headerEnd tokens)) = []) ∨
      ∃ word tail, firstWord? tokens = some word ∧ IsWord word ∧
        Text.trimStart (spaced (Token.through headerEnd tokens)) = word.toList ++ spaced tail := by
  induction tokens with
  | nil => exact Or.inl ⟨rfl, rfl⟩
  | cons token rest inductionHypothesis =>
      rcases readable token List.mem_cons_self with isWord | rfl
      · have window : ∃ tail, Token.through headerEnd (token :: rest) = token :: tail := by
          rw [Token.through]
          split <;> exact ⟨_, rfl⟩
        obtain ⟨tail, shape⟩ := window
        refine Or.inr ⟨token, tail, Token.firstWord?_word_cons isWord rest, isWord, ?_⟩
        rw [shape, Token.trimStart_spaced isWord]
      · rw [Token.through, if_neg (by decide), Token.trimStart_spaced_newline,
          Token.firstWord?_newline_cons]
        exact inductionHypothesis fun other member => readable other (List.mem_cons_of_mem _ member)

/-- The identifier after some tokens is the one that their first word starts with. -/
theorem name_of_firstWord {tokens : List String}
    (readable : ∀ token ∈ tokens, IsWord token ∨ token = newline) :
    (takeName? (Text.trimStart (spaced (Token.through headerEnd tokens)))).map
        (fun taken => String.ofList taken.1) =
      (firstWord? tokens).bind nameOf? := by
  rcases trimStart_spaced_through readable with ⟨none, blank⟩ | ⟨word, tail, some, isWord, start⟩
  · rw [none, blank]
    decide +kernel
  · have filled : word.toList ≠ [] := fun empty => isWord.1 (String.toList_eq_nil_iff.1 empty)
    rw [some, start, takeName?_append filled (Token.endsWord_spaced tail), Option.bind_some, nameOf?,
      Option.map_map]
    rfl

/-- A keyword that declares something is a token of its own. -/
theorem eq_of_declared? {word token : String} {text : List Char} {tail : List String}
    (letters : ∀ c ∈ word.toList, Text.continuesIdentifier c = true) (isWord : IsWord token)
    (start : Text.trimStart text = token.toList ++ spaced tail) {taken : List Char × List Char}
    (declares : declared? word.toList text = some taken) : token = word := by
  rw [declared?, start] at declares
  obtain ⟨after, found, named⟩ := Option.bind_eq_some_iff.1 declares
  have inToken : (afterKeyword? word.toList token.toList).isSome = true := by
    rw [← isSome_afterKeyword?_append letters (Token.endsWord_spaced tail), found]
    rfl
  obtain ⟨starts, boundary⟩ : word.toList <+: token.toList ∧
      endsWord (token.toList.drop word.toList.length) = true := by
    simpa [afterKeyword?] using inToken
  obtain ⟨more, shape⟩ := starts
  cases more with
  | nil => exact String.toList_injective (by rw [← shape, List.append_nil])
  | cons c others =>
      -- The identifier would have to start in the middle of the token.
      rw [← shape, List.drop_left] at boundary
      have solid : Text.isBlank c = false := isWord.2 c (by rw [← shape]; simp)
      have afterIs : after = c :: (others ++ spaced tail) := by
        simp only [afterKeyword?, Option.ite_none_right_eq_some, Option.some.injEq] at found
        rw [← found.2, ← shape]
        simp
      rw [afterIs, Text.trimStart_cons_of_solid solid] at named
      obtain ⟨split, filled, continues⟩ := takeName?_eq_some named
      obtain ⟨first, others, form⟩ := List.exists_cons_of_ne_nil filled
      rw [form, List.cons_append, List.cons.injEq] at split
      have goesOn := continuesIdentifier_of_continuesName (continues c (by simp [form, split.1]))
      simp [endsWord, goesOn] at boundary

theorem firstWord?_of_declared? {tokens : List String}
    (readable : ∀ token ∈ tokens, IsWord token ∨ token = newline) {taken : List Char × List Char}
    (declares : declared? extendsKeyword.toList (spaced (Token.through headerEnd tokens)) =
      some taken) : firstWord? tokens = some extendsKeyword := by
  have letters : ∀ c ∈ extendsKeyword.toList, Text.continuesIdentifier c = true := fun c member =>
    continuesIdentifier_of_continuesName
      (letters_of_mem_reservedWords extendsKeyword (by decide) c member)
  rcases trimStart_spaced_through readable with ⟨_, blank⟩ | ⟨word, tail, some, isWord, start⟩
  · have nothing : declared? extendsKeyword.toList (spaced (Token.through headerEnd tokens)) =
        none := by
      rw [declared?, blank]
      decide +kernel
    simp [nothing] at declares
  · rw [some, eq_of_declared? letters isWord start declares]

/-! ## The entity header -/

/-- The entity header reads the first word after the keyword, wherever its colon is. -/
theorem entityHeader_name {window : Token.Window} (anchor : window.anchor = classKeyword)
    (readable : ∀ token ∈ window.following, IsWord token ∨ token = newline) :
    Captures (entityHeader.parseWindow window)
      (((firstWord? window.following).bind nameOf?).map fun name => [⟨nameCapture, name⟩]) := by
  have form : entityHeader.pattern = declaration classKeyword nameCapture := rfl
  have outcome := declaration_parseWindow form isWord_classKeyword anchor
  rw [← name_of_firstWord readable, Option.map_map]
  exact outcome

/-! ## The class header -/

/-- The name and the parent of a class, in either order. -/
def headerGroup : Pattern :=
  .anyOrder [.named nameCapture identifier, .optional inheritanceClause]

/-- The parent comes first, and the name after it. -/
theorem parentAndName_reads {text : List Char} (notName : takeName? (Text.trimStart text) = none) :
    Reads (headerGroup.reader text)
      ((declared? extendsKeyword.toList text).bind fun parent =>
        (takeName? (Text.trimStart parent.2)).map fun name => ⟨name.2,
          [⟨parentCapture, String.ofList parent.1⟩, ⟨nameCapture, String.ofList name.1⟩]⟩) := by
  have first := named_identifier_reads nameCapture text
  rw [notName] at first
  obtain ⟨stuck, missed⟩ := first
  have second := declaration_reads extendsKeyword parentCapture text
  have shape : headerGroup.reader text =
      Reader.picks 2
        [⟨true, nameCapture, (Pattern.named nameCapture identifier).reader⟩,
          ⟨false, inheritanceClause.describe,
            (declaration extendsKeyword parentCapture).reader⟩] text := rfl
  rw [shape]
  cases declares : declared? extendsKeyword.toList text with
  | none =>
      rw [declares] at second
      obtain ⟨_, run⟩ := second
      simp [Reader.picks, Reader.pick, Reader.picks.settle, missed, run, Reads]
  | some parent =>
      rw [declares] at second
      have third := named_identifier_reads nameCapture parent.2
      cases taken : takeName? (Text.trimStart parent.2) with
      | none =>
          rw [taken] at third
          obtain ⟨_, run⟩ := third
          simp [Reader.picks, Reader.pick, Reader.picks.settle, missed, second.ok, run, taken, Reads]
      | some name =>
          rw [taken] at third
          simp [Reader.picks, Reader.pick, Reader.picks.settle, missed, second.ok, third.ok, taken,
            Reads]

/-- The captures of the group, with what was read for them. -/
inductive HeaderCaptures (text : List Char) : Pattern.Trail → Prop where
  | name {name rest : List Char} (taken : takeName? (Text.trimStart text) = some (name, rest)) :
      HeaderCaptures text [⟨nameCapture, String.ofList name⟩]
  | nameAndParent {name rest parent left : List Char}
      (taken : takeName? (Text.trimStart text) = some (name, rest))
      (declares : declared? extendsKeyword.toList rest = some (parent, left)) :
      HeaderCaptures text
        [⟨nameCapture, String.ofList name⟩, ⟨parentCapture, String.ofList parent⟩]
  | parentAndName {parent rest name left : List Char}
      (declares : declared? extendsKeyword.toList text = some (parent, rest))
      (taken : takeName? (Text.trimStart rest) = some (name, left)) :
      HeaderCaptures text
        [⟨parentCapture, String.ofList parent⟩, ⟨nameCapture, String.ofList name⟩]

theorem headerCaptures_of_reads {text : List Char} {group : Reading}
    (reads : headerGroup.reader text = .ok group) : HeaderCaptures text group.captures := by
  cases taken : takeName? (Text.trimStart text) with
  | some pair =>
      rw [headerGroup, nameAndParent_reads taken, Except.ok.injEq] at reads
      rw [← reads]
      cases declares : declared? extendsKeyword.toList pair.2 with
      | none => exact .name taken
      | some parent => exact .nameAndParent taken declares
  | none =>
      have parentFirst := parentAndName_reads taken
      rw [reads] at parentFirst
      cases declares : declared? extendsKeyword.toList text with
      | none => simp [declares, Reads] at parentFirst
      | some parent =>
          cases named : takeName? (Text.trimStart parent.2) with
          | none => simp [declares, named, Reads] at parentFirst
          | some name =>
              simp only [declares, Option.bind_some, named, Option.map_some, Reads,
                Except.ok.injEq] at parentFirst
              rw [parentFirst]
              exact .parentAndName declares named

/-- Skipping to a literal captures nothing, and the literal is in the text. -/
theorem skipTo_literal_ok {label expected : String} {text : List Char} {found : Reading}
    (read : Reader.skipTo label (Pattern.literal expected).reader text = .ok found) :
    found.captures = [] ∧ expected.toList <:+: text := by
  rw [Reader.skipTo] at read
  split at read
  · next rest reached =>
      obtain rfl := Except.ok.inj read
      obtain ⟨ends, ⟨last, literal⟩, -⟩ := Pattern.seek_eq_some reached
      have starts : expected.toList <+: Text.trimStart rest := by
        simp only [Pattern.reader, Reader.literal] at literal
        split at literal
        · next isPrefix => exact List.isPrefixOf_iff_prefix.1 isPrefix
        · simp at literal
      exact ⟨rfl, starts.isInfix.trans ((Text.trimStart_suffix rest).trans ends).isInfix⟩
  · simp at read

/-- A class header is the keyword, the group, and a colon somewhere after it. -/
theorem classHeader_reader_ok {text : List Char} {found : Reading}
    (read : classHeader.pattern.reader text = .ok found) :
    ∃ rest group, afterKeyword? classKeyword.toList (Text.trimStart text) = some rest ∧
      headerGroup.reader rest = .ok group ∧ found.captures = group.captures ∧
        headerEnd.toList <:+: group.rest := by
  have shape : classHeader.pattern.reader text =
      Reader.sequence [Reader.keyword (Pattern.keyword classKeyword).describe classKeyword.toList,
        headerGroup.reader,
        Reader.skipTo (Pattern.skipTo (.literal headerEnd)).describe
          (Pattern.literal headerEnd).reader] text := rfl
  rw [shape, Reader.sequence, keyword_reads] at read
  cases after : afterKeyword? classKeyword.toList (Text.trimStart text) with
  | none => simp [after] at read
  | some rest =>
      cases grouped : headerGroup.reader rest with
      | error stuck => simp [after, Reader.sequence, grouped] at read
      | ok group =>
          cases skips : Reader.skipTo (Pattern.skipTo (.literal headerEnd)).describe
              (Pattern.literal headerEnd).reader group.rest with
          | error stuck => simp [after, Reader.sequence, grouped, skips] at read
          | ok skipped =>
              obtain ⟨silent, inside⟩ := skipTo_literal_ok skips
              simp only [after, Reader.sequence, grouped, skips, silent, List.append_nil,
                List.nil_append, Except.ok.injEq] at read
              exact ⟨rest, group, rfl, grouped, by rw [← read], inside⟩

/-- In a window that the keyword opens, the group reads what comes after the keyword. -/
theorem classHeader_ok {window : Token.Window} (anchor : window.anchor = classKeyword)
    {found : Match} (matched : classHeader.parseWindow window = .ok found) :
    ∃ group : Reading, headerGroup.reader (spaced (Token.through headerEnd window.following)) =
        .ok group ∧ found.captures = group.captures ∧ headerEnd.toList <:+: group.rest := by
  obtain ⟨_, read⟩ := reader_of_parse_ok matched
  have text : Token.Window.text window classHeader.terminal =
      Token.join (classKeyword :: Token.through headerEnd window.following) := by
    rw [Token.Window.text, anchor]
    rfl
  rw [text] at read
  obtain ⟨rest, group, after, grouped, captures, inside⟩ := classHeader_reader_ok read
  rw [trimStart_join, Token.trimStart_spaced isWord_classKeyword,
    afterKeyword?_append _ (Token.endsWord_spaced _), Option.some.injEq] at after
  exact ⟨group, after ▸ grouped, captures, inside⟩

/-- A class header names its class with the first word after the keyword, or that word opens
the parent and the name comes later. -/
theorem classHeader_name {window : Token.Window} (anchor : window.anchor = classKeyword)
    (readable : ∀ token ∈ window.following, IsWord token ∨ token = newline) {found : Match}
    (matched : classHeader.parseWindow window = .ok found) {name : String}
    (named : found.first? nameCapture = some name) :
    (firstWord? window.following).bind nameOf? = some name ∨
      firstWord? window.following = some extendsKeyword := by
  obtain ⟨group, reads, captures, _⟩ := classHeader_ok anchor matched
  have word := name_of_firstWord readable
  have shape := headerCaptures_of_reads reads
  rw [Match.first?, captures] at named
  generalize group.captures = trail at shape named
  cases shape with
  | name taken =>
      rw [taken] at word
      exact Or.inl (word.symm.trans (by simpa using named))
  | nameAndParent taken _ =>
      rw [taken] at word
      exact Or.inl (word.symm.trans (by simpa using named))
  | parentAndName declares _ => exact Or.inr (firstWord?_of_declared? readable declares)

/-- Every class header has a name. -/
theorem exists_name_of_classHeader {window : Token.Window} (anchor : window.anchor = classKeyword)
    {found : Match} (matched : classHeader.parseWindow window = .ok found) :
    ∃ name, found.first? nameCapture = some name := by
  obtain ⟨group, reads, captures, _⟩ := classHeader_ok anchor matched
  have shape := headerCaptures_of_reads reads
  rw [Match.first?, captures]
  generalize group.captures = trail at shape
  cases shape with
  | name _ => exact ⟨_, rfl⟩
  | nameAndParent _ _ => exact ⟨_, rfl⟩
  | parentAndName _ _ => exact ⟨_, rfl⟩

theorem letters_of_declared? {word text : List Char} {taken : List Char × List Char}
    (declares : declared? word text = some taken) : ∀ c ∈ taken.1, continuesName c = true := by
  obtain ⟨rest, _, named⟩ := Option.bind_eq_some_iff.1 declares
  exact (takeName?_eq_some named).2.2

/-- All names in a class header are identifiers, as far as their letters go. -/
theorem letters_of_classHeader {window : Token.Window} (anchor : window.anchor = classKeyword)
    {found : Match} (matched : classHeader.parseWindow window = .ok found) :
    ∀ capture ∈ found.captures, ∀ c ∈ capture.value.toList, continuesName c = true := by
  obtain ⟨group, reads, captures, _⟩ := classHeader_ok anchor matched
  have shape := headerCaptures_of_reads reads
  rw [captures]
  generalize group.captures = trail at shape
  cases shape with
  | name taken => simpa using (takeName?_eq_some taken).2.2
  | nameAndParent taken declares =>
      simpa using ⟨(takeName?_eq_some taken).2.2, letters_of_declared? declares⟩
  | parentAndName declares taken =>
      simpa using ⟨letters_of_declared? declares, (takeName?_eq_some taken).2.2⟩

/-- The name in an entity header is an identifier, as far as its letters go. -/
theorem letters_of_entityHeader {window : Token.Window} {found : Match}
    (matched : entityHeader.parseWindow window = .ok found) :
    ∀ capture ∈ found.captures, ∀ c ∈ capture.value.toList, continuesName c = true := by
  obtain ⟨rest, read⟩ := reader_of_parse_ok matched
  have reads := declaration_reads classKeyword nameCapture
    (window.text entityHeader.terminal).toList
  have form : entityHeader.pattern = declaration classKeyword nameCapture := rfl
  rw [← form, read] at reads
  cases declares : declared? classKeyword.toList (window.text entityHeader.terminal).toList with
  | none => simp [declares, Reads] at reads
  | some taken =>
      simp only [declares, Option.map_some, Reads, Except.ok.injEq, Pattern.Reading.mk.injEq]
        at reads
      rw [reads.2]
      simpa using letters_of_declared? declares

/-- No class header is matched without a colon. -/
theorem exists_colon_of_classHeader {window : Token.Window}
    (anchor : window.anchor = classKeyword) {found : Match}
    (matched : classHeader.parseWindow window = .ok found) :
    ∃ token ∈ window.following, ':' ∈ token.toList := by
  obtain ⟨group, reads, _, inRest⟩ := classHeader_ok anchor matched
  have start : headerGroup.reader (Pattern.Cursor.start
      (spaced (Token.through headerEnd window.following))).rest = .ok group := reads
  obtain ⟨ends, _⟩ := (Pattern.simulates_reader headerGroup).ok start []
  have inText : ':' ∈ spaced (Token.through headerEnd window.following) :=
    ends.subset (inRest.subset (by decide))
  obtain ⟨token, member, inToken⟩ := List.mem_flatMap.1 inText
  have inside : token ∈ window.following := (Token.through_isPrefix _ _).subset member
  rcases List.mem_cons.1 inToken with space | found
  · exact absurd space (by decide)
  · exact ⟨token, inside, found⟩

end Grammar

end GodotGraph
