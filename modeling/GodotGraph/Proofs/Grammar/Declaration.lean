import GodotGraph.Grammar.Header
import GodotGraph.Proofs.Grammar.Identifier
import GodotGraph.Proofs.Token.Stream
import GodotGraph.Proofs.Token.Windows

/-!
Contract: what the grammars of headers read of a token stream.

Owns:
- declarations, which are a keyword with an identifier after it;
- their outcome on a window, which the token after the anchor decides;
- the name and the parent that a class header gives.
-/

set_option autoImplicit false

namespace GodotGraph

namespace Token

/-- The tokens with a space before each. -/
def spaced (tokens : List String) : List Char :=
  tokens.flatMap fun token => ' ' :: token.toList

@[simp] theorem spaced_nil : spaced [] = [] := rfl

theorem spaced_cons (token : String) (rest : List String) :
    spaced (token :: rest) = ' ' :: (token.toList ++ spaced rest) := by
  simp [spaced]

theorem spaced_append (first rest : List String) :
    spaced (first ++ rest) = spaced first ++ spaced rest := by
  simp [spaced]

theorem toList_join_cons (token : String) (rest : List String) :
    (join (token :: rest)).toList = token.toList ++ spaced rest := by
  induction rest generalizing token with
  | nil => simp [join]
  | cons next others inductionHypothesis =>
      have step : join (token :: next :: others) = token ++ " " ++ join (next :: others) :=
        String.intercalate_cons_cons
      rw [step, String.toList_append, String.toList_append, inductionHypothesis, spaced_cons]
      simp

/-- No identifier goes on into the next token. -/
theorem endsWord_spaced (tokens : List String) : Pattern.endsWord (spaced tokens) = true := by
  cases tokens with
  | nil => rfl
  | cons token rest =>
      have space : Text.continuesIdentifier ' ' = false := by decide +kernel
      simp [spaced_cons, Pattern.endsWord, space]

/-- Blanks before a word are skipped, and the word is not. -/
theorem trimStart_spaced {token : String} (isWord : IsWord token) (rest : List String) :
    Text.trimStart (spaced (token :: rest)) = token.toList ++ spaced rest := by
  obtain ⟨filled, solid⟩ := isWord
  rw [spaced_cons]
  cases shape : token.toList with
  | nil => exact absurd (String.toList_eq_nil_iff.1 shape) filled
  | cons c others =>
      have head : Text.isBlank c = false := solid c (by simp [shape])
      show Text.trimStart (c :: (others ++ spaced rest)) = _
      exact Text.trimStart_cons_of_solid head

end Token

namespace Grammar

open Pattern (Reader Reading Stuck endsWord)
open Token (IsWord spaced)

/-! ## Captured identifiers -/

theorem trim_of_ends {text : List Char} (first : ∀ c ∈ text.head?, Text.isBlank c = false)
    (last : ∀ c ∈ text.getLast?, Text.isBlank c = false) : Text.trim text = text := by
  have back : text.reverse.dropWhile Text.isBlank = text.reverse :=
    Text.trimStart_of_head (by rwa [List.head?_reverse])
  rw [Text.trim, Text.trimStart_of_head first, Text.trimEnd, back, List.reverse_reverse]

theorem trim_of_solid {text : List Char} (solid : ∀ c ∈ text, Text.isBlank c = false) :
    Text.trim text = text :=
  trim_of_ends (fun c isHead => solid c (List.mem_of_head? isHead))
    fun c isLast => solid c (List.mem_of_getLast? isLast)

theorem between_append (first rest : List Char) : Reader.between (first ++ rest) rest = first := by
  simp [Reader.between]

/-- What a pattern reads is captured whole if no blank stands at its ends. -/
theorem Reads.named (capture : String) {inner : Pattern} {text : List Char}
    {taken? : Option (List Char × List Char)}
    (reads : Reads (inner.reader text) (taken?.map fun taken => ⟨taken.2, []⟩))
    (split : ∀ taken ∈ taken?,
      Text.trimStart text = taken.1 ++ taken.2 ∧ Text.trim taken.1 = taken.1) :
    Reads ((Pattern.named capture inner).reader text)
      (taken?.map fun taken => ⟨taken.2, [⟨capture, String.ofList taken.1⟩]⟩) := by
  cases taken? with
  | none =>
      obtain ⟨stuck, run⟩ := reads
      simp only [Pattern.reader, Reader.named, run]
      split <;> exact ⟨_, rfl⟩
  | some taken =>
      obtain ⟨shape, trimmed⟩ := split taken rfl
      have run := reads.ok
      simp [Pattern.reader, Reader.named, run, shape, between_append, trimmed, Reads]

theorem named_identifier_reads (capture : String) (text : List Char) :
    Reads ((Pattern.named capture identifier).reader text)
      ((takeName? (Text.trimStart text)).map fun taken =>
        ⟨taken.2, [⟨capture, String.ofList taken.1⟩]⟩) := by
  refine (identifier_reads text).named capture fun taken isTaken => ?_
  obtain ⟨shape, _, letters⟩ := takeName?_eq_some isTaken
  exact ⟨shape, trim_of_solid fun c member => isBlank_of_continuesName (letters c member)⟩

/-! ## Declarations -/

/-- A keyword and the identifier that it declares. -/
def declaration (word capture : String) : Pattern :=
  .seq [.keyword word, .named capture identifier]

/-- The identifier that a text declares with a keyword, and the text after it. -/
def declared? (word text : List Char) : Option (List Char × List Char) :=
  (afterKeyword? word (Text.trimStart text)).bind fun rest => takeName? (Text.trimStart rest)

theorem declaration_reads (word capture : String) (text : List Char) :
    Reads ((declaration word capture).reader text)
      ((declared? word.toList text).map fun taken =>
        ⟨taken.2, [⟨capture, String.ofList taken.1⟩]⟩) := by
  have shape : (declaration word capture).reader text =
      Reader.sequence [Reader.keyword (Pattern.keyword word).describe word.toList,
        (Pattern.named capture identifier).reader] text := rfl
  rw [shape, Reader.sequence, keyword_reads, declared?]
  cases afterKeyword? word.toList (Text.trimStart text) with
  | none => exact ⟨_, rfl⟩
  | some rest =>
      have named := named_identifier_reads capture rest
      simp only [Option.bind_some, Reader.sequence]
      cases taken : takeName? (Text.trimStart rest) with
      | none =>
          rw [taken] at named
          obtain ⟨stuck, run⟩ := named
          exact ⟨stuck, by rw [run]⟩
      | some pair =>
          rw [taken] at named
          simp [named.ok, Reads]

/-! ## Declarations in windows -/

/-- The identifier that a token starts with. -/
def nameOf? (token : String) : Option String :=
  (takeName? token.toList).map fun taken => String.ofList taken.1

theorem nameOf?_identifier (identifier : Identifier) :
    nameOf? identifier.text = some identifier.text := by
  simp [nameOf?, Identifier.text, identifier.takeName?_letters]

theorem afterKeyword?_append {word : List Char} (rest : List Char)
    (boundary : endsWord rest = true) : afterKeyword? word (word ++ rest) = some rest := by
  have starts : word.isPrefixOf (word ++ rest) = true :=
    List.isPrefixOf_iff_prefix.2 (List.prefix_append _ _)
  simp [afterKeyword?, starts, boundary]

/-- A keyword among other tokens declares what comes after it. -/
theorem declared?_spaced {word : String} (isWord : IsWord word) (following : List String) :
    declared? word.toList (spaced (word :: following)) =
      takeName? (Text.trimStart (spaced following)) := by
  rw [declared?, Token.trimStart_spaced isWord,
    afterKeyword?_append _ (Token.endsWord_spaced following)]
  rfl

theorem trimStart_join (token : String) (rest : List String) :
    Text.trimStart (Token.join (token :: rest)).toList =
      Text.trimStart (spaced (token :: rest)) := by
  have blank : Text.isBlank ' ' = true := by decide
  have space : ∀ c ∈ [' '], Text.isBlank c = true :=
    List.forall_mem_singleton.2 blank
  rw [Token.spaced_cons, Token.toList_join_cons]
  exact (Text.trimStart_append_of_blank space).symm

theorem declared?_join {word : String} (isWord : IsWord word) (following : List String) :
    declared? word.toList (Token.join (word :: following)).toList =
      takeName? (Text.trimStart (spaced following)) := by
  rw [← declared?_spaced isWord, declared?, declared?, trimStart_join]

section Windows

variable {grammar : Grammar} {word capture : String} {window : Token.Window}

theorem declaration_parseWindow (form : grammar.pattern = declaration word capture)
    (isWord : IsWord word) (anchor : window.anchor = word) :
    Captures (grammar.parseWindow window)
      ((takeName? (Text.trimStart (spaced (Token.within grammar.terminal window.following)))).map
        fun taken => [⟨capture, String.ofList taken.1⟩]) := by
  have reads := declaration_reads word capture (window.text grammar.terminal).toList
  rw [Token.Window.text, anchor, declared?_join isWord, ← form] at reads
  cases taken : takeName?
      (Text.trimStart (spaced (Token.within grammar.terminal window.following))) with
  | none =>
      rw [taken] at reads
      obtain ⟨stuck, run⟩ := reads
      rw [Grammar.parseWindow, Token.Window.text, anchor]
      exact parse_of_reader_error run
  | some pair =>
      rw [taken] at reads
      rw [Grammar.parseWindow, Token.Window.text, anchor]
      exact parse_of_reader_ok reads

/-- If a word comes next, that word decides. -/
theorem declaration_parseWindow_word (form : grammar.pattern = declaration word capture)
    (isWord : IsWord word) (anchor : window.anchor = word) {next : String} {rest : List String}
    (inside : Token.within grammar.terminal window.following = next :: rest)
    (nextWord : IsWord next) :
    Captures (grammar.parseWindow window) ((nameOf? next).map fun name => [⟨capture, name⟩]) := by
  have outcome := declaration_parseWindow form isWord anchor
  have filled : next.toList ≠ [] := fun empty =>
    nextWord.1 (String.toList_eq_nil_iff.1 empty)
  rw [inside, Token.trimStart_spaced nextWord,
    takeName?_append filled (Token.endsWord_spaced rest)] at outcome
  rw [nameOf?]
  cases taken : takeName? next.toList with
  | none =>
      rw [taken] at outcome
      exact outcome
  | some pair =>
      rw [taken] at outcome
      exact outcome

end Windows

/-! ## Class headers -/

/-- The tokens that name a parent. -/
def parentTokens : Option Identifier → List String
  | none => []
  | some parent => [extendsKeyword, parent.text]

/-- The tokens of a class header, from the keyword to the colon. -/
def headerTokens (name : Identifier) (parent : Option Identifier) : List String :=
  classKeyword :: name.text :: (parentTokens parent ++ [headerEnd])

/-- The captures of a class header. -/
def headerCaptures (name : Identifier) (parent : Option Identifier) : Pattern.Trail :=
  ⟨nameCapture, name.text⟩ :: parent.toList.map fun identifier => ⟨parentCapture, identifier.text⟩

theorem isWord_classKeyword : IsWord classKeyword := by
  decide

theorem isWord_extendsKeyword : IsWord extendsKeyword := by
  decide

theorem Identifier.isWord (identifier : Identifier) : IsWord identifier.text := by
  constructor
  · intro empty
    have noLetters : identifier.letters = [] := by
      rw [← String.toList_ofList (l := identifier.letters)]
      exact String.toList_eq_nil_iff.2 empty
    exact identifier.letters_ne_nil noLetters
  · intro c member
    rw [Identifier.text, String.toList_ofList] at member
    exact isBlank_of_continuesName (identifier.continuesName_of_mem c member)

theorem Identifier.text_ne_headerEnd (identifier : Identifier) : identifier.text ≠ headerEnd := by
  intro same
  have letters : identifier.letters = headerEnd.toList := by
    rw [← same, Identifier.text, String.toList_ofList]
  have colon := identifier.continuesName_of_mem ':' (by rw [letters]; decide)
  exact absurd colon (by decide)

theorem through_headerTokens (name : Identifier) (parent : Option Identifier)
    (rest : List String) :
    Token.through headerEnd (name.text :: (parentTokens parent ++ headerEnd :: rest)) =
      name.text :: (parentTokens parent ++ [headerEnd]) := by
  have keyword : extendsKeyword ≠ headerEnd := by decide
  cases parent with
  | none => simp [Token.through, parentTokens, name.text_ne_headerEnd]
  | some identifier =>
      simp [Token.through, parentTokens, name.text_ne_headerEnd, identifier.text_ne_headerEnd,
        keyword]

/-- The name comes first, and the parent after it if there is one. -/
theorem nameAndParent_reads {text name rest : List Char}
    (taken : takeName? (Text.trimStart text) = some (name, rest)) :
    (Pattern.anyOrder [.named nameCapture identifier, .optional inheritanceClause]).reader text =
      .ok ((declared? extendsKeyword.toList rest).elim ⟨rest, [⟨nameCapture, String.ofList name⟩]⟩
        fun parent => ⟨parent.2,
          [⟨nameCapture, String.ofList name⟩, ⟨parentCapture, String.ofList parent.1⟩]⟩) := by
  have first := named_identifier_reads nameCapture text
  rw [taken] at first
  have second := declaration_reads extendsKeyword parentCapture rest
  have shape : (Pattern.anyOrder
      [.named nameCapture identifier, .optional inheritanceClause]).reader text =
        Reader.picks 2
          [⟨true, nameCapture, (Pattern.named nameCapture identifier).reader⟩,
            ⟨false, inheritanceClause.describe,
              (declaration extendsKeyword parentCapture).reader⟩] text := rfl
  rw [shape]
  cases declares : declared? extendsKeyword.toList rest with
  | none =>
      rw [declares] at second
      obtain ⟨stuck, run⟩ := second
      simp [Reader.picks, Reader.pick, Reader.picks.settle, first.ok, run]
  | some parent =>
      rw [declares] at second
      simp [Reader.picks, Reader.pick, Reader.picks.settle, first.ok, second.ok]

theorem takeName?_spaced (name : Identifier) (rest : List String) :
    takeName? (Text.trimStart (spaced (name.text :: rest))) = some (name.letters, spaced rest) := by
  rw [Token.trimStart_spaced name.isWord, Identifier.text, String.toList_ofList,
    takeName?_append name.letters_ne_nil (Token.endsWord_spaced rest), name.takeName?_letters]
  rfl

/-- What is declared between a name and the colon is the parent. -/
theorem declared?_parentTokens (parent : Option Identifier) :
    declared? extendsKeyword.toList (spaced (parentTokens parent ++ [headerEnd])) =
      parent.map fun identifier => (identifier.letters, spaced [headerEnd]) := by
  cases parent with
  | none => decide +kernel
  | some identifier =>
      show declared? extendsKeyword.toList (spaced [extendsKeyword, identifier.text, headerEnd]) = _
      rw [declared?_spaced isWord_extendsKeyword, takeName?_spaced]
      rfl

theorem headerGroup_reads (name : Identifier) (parent : Option Identifier) :
    (Pattern.anyOrder [.named nameCapture identifier, .optional inheritanceClause]).reader
        (spaced (name.text :: (parentTokens parent ++ [headerEnd]))) =
      .ok ⟨spaced [headerEnd], headerCaptures name parent⟩ := by
  rw [nameAndParent_reads (takeName?_spaced name _), declared?_parentTokens]
  cases parent with
  | none => rfl
  | some identifier => rfl

/-- Skipping to a literal that comes next reads nothing but blanks. -/
theorem skipTo_literal_reads (label expected : String) {text : List Char}
    (next : expected.toList <+: Text.trimStart text) :
    Reader.skipTo label (Pattern.literal expected).reader text = .ok ⟨Text.trimStart text, []⟩ := by
  have found : (Pattern.literal expected).reader text =
      .ok ⟨(Text.trimStart text).drop expected.toList.length, []⟩ := by
    simp [Pattern.reader, Reader.literal, next]
  have reached : Reader.seek (Pattern.literal expected).reader text = some text := by
    cases text <;> simp [Reader.seek, found]
  simp [Reader.skipTo, reached]

/-- A class header gives its name and its parent. -/
theorem classHeader_parseWindow (name : Identifier) (parent : Option Identifier)
    {window : Token.Window} {rest : List String}
    (header : window.anchor :: window.following = headerTokens name parent ++ rest) :
    ∃ stop, classHeader.parseWindow window = .ok ⟨headerCaptures name parent, stop⟩ := by
  obtain ⟨anchor, following⟩ : window.anchor = classKeyword ∧
      window.following = name.text :: (parentTokens parent ++ headerEnd :: rest) := by
    simpa [headerTokens] using header
  have text : window.text classHeader.terminal = Token.join (headerTokens name parent) := by
    rw [Token.Window.text, anchor, following]
    exact congrArg (fun tokens => Token.join (classKeyword :: tokens))
      (through_headerTokens name parent rest)
  rw [Grammar.parseWindow, text]
  have keyword := keyword_reads (Pattern.keyword classKeyword).describe classKeyword.toList
    (Token.join (headerTokens name parent)).toList
  rw [headerTokens, trimStart_join, Token.trimStart_spaced isWord_classKeyword,
    afterKeyword?_append _ (Token.endsWord_spaced _)] at keyword
  have group := headerGroup_reads name parent
  have colon : Reader.skipTo (Pattern.skipTo (.literal headerEnd)).describe
      (Pattern.literal headerEnd).reader (spaced [headerEnd]) = .ok ⟨headerEnd.toList, []⟩ :=
    skipTo_literal_reads _ headerEnd (by decide +kernel)
  have reads : classHeader.pattern.reader (Token.join (headerTokens name parent)).toList =
      .ok ⟨headerEnd.toList, headerCaptures name parent⟩ := by
    have shape : ∀ read, classHeader.pattern.reader read =
        Reader.sequence [Reader.keyword (Pattern.keyword classKeyword).describe classKeyword.toList,
          (Pattern.anyOrder [.named nameCapture identifier, .optional inheritanceClause]).reader,
          Reader.skipTo (Pattern.skipTo (.literal headerEnd)).describe
            (Pattern.literal headerEnd).reader] read := fun read => rfl
    rw [shape, headerTokens]
    simp only [Reader.sequence, keyword, group, colon, List.nil_append, List.append_nil]
  exact parse_of_reader_ok reads

/-- A class header starts with a declaration of its name. -/
theorem entityHeader_parseWindow (name : Identifier) (parent : Option Identifier)
    {window : Token.Window} {rest : List String}
    (header : window.anchor :: window.following = headerTokens name parent ++ rest) :
    ∃ stop, entityHeader.parseWindow window = .ok ⟨[⟨nameCapture, name.text⟩], stop⟩ := by
  obtain ⟨anchor, following⟩ : window.anchor = classKeyword ∧
      window.following = name.text :: (parentTokens parent ++ headerEnd :: rest) := by
    simpa [headerTokens] using header
  have inside : Token.within entityHeader.terminal window.following =
      name.text :: (parentTokens parent ++ [headerEnd]) := by
    rw [following]
    exact through_headerTokens name parent rest
  have form : entityHeader.pattern = declaration classKeyword nameCapture := rfl
  have outcome := declaration_parseWindow_word form isWord_classKeyword anchor inside name.isWord
  rwa [nameOf?_identifier] at outcome

end Grammar

end GodotGraph
