import GodotGraph.Proofs.Grammar.ResourceReading
import GodotGraph.Proofs.Grammar.Terminal
import GodotGraph.Proofs.Token.Spread

/-!
Contract: load calls as they are written and as they are read.

Owns:
- calls with a path and the scheme that it is written under, and the tokens of such calls;
- the outcome of the grammar where the words of a call are strewn over a window;
- what every match of the grammar has: an opening mark in its text, and a path.

A path without a scheme may start with the letters of one, or be all of them. Neither the
lookahead for foreign paths nor the optional root takes it for a scheme: both need a colon, and
the closing quote comes before any.

Does not own: the stream of a script.
-/

set_option autoImplicit false

namespace GodotGraph

namespace Grammar

open Pattern (Reader Reading compositional_reader)
open Token (IsWord Spread Strewn Window isSolid newline ofGodot spaced words)

/-! ## Calls and their tokens -/

/-- What is written in front of a path. -/
def schemeText : Option Scheme → String
  | none => ""
  | some scheme => scheme.name ++ "://"

/-- A load call without blanks. -/
def callText (keyword : String) (scheme? : Option Scheme) (target : PathWord) : String :=
  keyword ++ "(\"" ++ schemeText scheme? ++ target.text ++ "\")"

/-- The tokens of a load call. -/
def callTokens (keyword : String) (scheme? : Option Scheme) (target : PathWord) : List String :=
  keyword :: "(" :: "\"" :: ((Field.path scheme? target).valueTokens ++ ["\"", ")"])

/-- The token is a word, and the stream of its text is the token itself. -/
def IsWhole (token : String) : Prop :=
  IsWord token ∧ ofGodot token.toList = [token]

theorem isWhole_of_solid {letters : List Char} (filled : letters ≠ [])
    (solid : ∀ c ∈ letters, isSolid c = true) : IsWhole (String.ofList letters) := by
  refine ⟨Token.isWord_ofList filled solid, ?_⟩
  rw [String.toList_ofList]
  exact Token.ofGodot_solid filled solid

theorem isWhole_of_mark {mark : Char} (isMark : mark ∈ Token.Padding.godotMarks) :
    IsWhole (String.ofList [mark]) := by
  have notBlank := Token.solid_of_mem_godotMarks mark isMark
  refine ⟨⟨by simp [← String.toList_eq_nil_iff], by simpa using notBlank⟩, ?_⟩
  rw [String.toList_ofList]
  exact Token.ofGodot_append_mark [] [] isMark

theorem isWhole_loadKeyword : ∀ keyword ∈ loadKeywords, IsWhole keyword := by
  intro keyword isKeyword
  have all : (loadKeywords.all fun word => word.toList ≠ [] ∧ word.toList.all isSolid) = true := by
    decide +kernel
  have shaped := List.all_eq_true.1 all keyword isKeyword
  simp only [decide_eq_true_eq] at shaped
  have whole := isWhole_of_solid shaped.1 (List.all_eq_true.1 shaped.2)
  rwa [String.ofList_toList] at whole

theorem isWhole_valueTokens (field : Field) : ∀ token ∈ field.valueTokens, IsWhole token := by
  have letters := isWhole_of_solid field.letters_ne_nil field.isSolid_of_mem_letters
  rw [Field.valueTokens]
  cases field.scheme? with
  | none => simpa using letters
  | some scheme =>
      have name := isWhole_of_solid scheme.name_solid.1 scheme.name_solid.2
      rw [String.ofList_toList] at name
      have colon := isWhole_of_mark (show ':' ∈ Token.Padding.godotMarks by decide)
      have slashed := isWhole_of_solid (by simp) field.isSolid_of_mem_slashed
      simp only [List.mem_cons, List.not_mem_nil, or_false, forall_eq_or_imp, forall_eq]
      exact ⟨name, colon, slashed⟩

section

variable {keyword : String} {scheme? : Option Scheme} {target : PathWord}

theorem isWhole_callTokens (isKeyword : keyword ∈ loadKeywords) :
    ∀ token ∈ callTokens keyword scheme? target, IsWhole token := by
  have opening := isWhole_of_mark (show '(' ∈ Token.Padding.godotMarks by decide)
  have closing := isWhole_of_mark (show ')' ∈ Token.Padding.godotMarks by decide)
  have quote := isWhole_of_mark (show '"' ∈ Token.Padding.godotMarks by decide)
  have value := isWhole_valueTokens (Field.path scheme? target)
  simp only [callTokens, List.mem_cons, List.mem_append, List.not_mem_nil, or_false]
  rintro token (rfl | rfl | rfl | inValue | rfl | rfl)
  · exact isWhole_loadKeyword token isKeyword
  · exact opening
  · exact quote
  · exact value token inValue
  · exact quote
  · exact closing

/-- One of two tokens that meet in a call is a mark. -/
theorem apart_callTokens : (callTokens keyword scheme? target).IsChain Token.Apart := by
  have opening : Token.isBreak '(' = true := by decide
  have quote : Token.isBreak '"' = true := by decide
  have colon : Token.isBreak ':' = true := by decide
  have before : ∀ token, Token.Apart token "(" := Token.apart_of_isBreak_right opening
  have opened : ∀ token, Token.Apart "(" token := Token.apart_of_isBreak_left opening
  have quoted : ∀ token, Token.Apart "\"" token := Token.apart_of_isBreak_left quote
  have ended : ∀ token, Token.Apart token "\"" := Token.apart_of_isBreak_right quote
  have schemed : ∀ token, Token.Apart token ":" := Token.apart_of_isBreak_right colon
  have marked : ∀ token, Token.Apart ":" token := Token.apart_of_isBreak_left colon
  cases scheme? with
  | none => simp [callTokens, Field.valueTokens, Field.scheme?, before, opened, quoted, ended]
  | some scheme =>
      simp [callTokens, Field.valueTokens, Field.scheme?, before, opened, quoted, ended, schemed,
        marked]

theorem ofSource_callText (isKeyword : keyword ∈ loadKeywords) :
    Token.ofSource (callText keyword scheme? target) = callTokens keyword scheme? target := by
  have quote : '"' ∈ Token.Padding.godotMarks := by decide
  have shape : (callText keyword scheme? target).toList = keyword.toList ++ '(' ::
      ([] ++ '"' :: ((Field.path scheme? target).value ++ '"' :: ([] ++ ')' :: []))) := by
    cases scheme? <;>
      simp [callText, schemeText, Field.value, Field.scheme?, Field.letters, Lexeme.text]
  show ofGodot (callText keyword scheme? target).toList = _
  rw [shape, Token.ofGodot_append_mark _ _ (by decide), Token.ofGodot_append_mark _ _ quote,
    Token.ofGodot_append_mark _ _ quote, Token.ofGodot_append_mark _ _ (by decide),
    (isWhole_loadKeyword keyword isKeyword).2, Field.ofGodot_value, Token.ofGodot_nil]
  rfl

/-- Whatever blanks stand between its tokens, a call has the same words. -/
theorem words_of_call (isKeyword : keyword ∈ loadKeywords) {text : List Char}
    (spread : Spread (Token.ofSource (callText keyword scheme? target)) text) :
    words (ofGodot text) = callTokens keyword scheme? target := by
  rw [ofSource_callText isKeyword] at spread
  have whole : ∀ token ∈ callTokens keyword scheme? target, IsWhole token :=
    isWhole_callTokens isKeyword
  exact Token.words_of_spread spread (fun token member => (whole token member).1)
    (fun token member => (whole token member).2) apart_callTokens

end

/-! ## Parts of a call at a place -/

/-- A part that captures nothing is passed. -/
theorem seq_cons_silent {part : Pattern} {others : List Pattern} {text rest : List Char}
    (read : part.reader text = .ok ⟨rest, []⟩) :
    (Pattern.seq (part :: others)).reader text = (Pattern.seq others).reader rest := by
  simp only [Pattern.reader, Pattern.readers, Reader.sequence, read, List.nil_append]
  cases Reader.sequence (Pattern.readers others) rest <;> rfl

theorem loadKeyword_reads {keyword : String} (isKeyword : keyword ∈ loadKeywords)
    {text tail : List Char} (start : Text.trimStart text = keyword.toList ++ tail)
    (boundary : Pattern.endsWord tail = true) :
    (Pattern.first (loadKeywords.map .keyword)).reader text = .ok ⟨tail, []⟩ := by
  have found : afterKeyword? keyword.toList (Text.trimStart text) = some tail := by
    rw [start, afterKeyword?_append tail boundary]
  have shape : (Pattern.first (loadKeywords.map .keyword)).reader text =
      Reader.first (Pattern.first (loadKeywords.map .keyword)).describe
        [(Pattern.keyword "load").reader, (Pattern.keyword "preload").reader] text := rfl
  rw [shape, Reader.first]
  simp only [loadKeywords, List.mem_cons, List.not_mem_nil, or_false] at isKeyword
  rcases isKeyword with rfl | rfl
  · simp only [Reader.firstOf, Pattern.reader, keyword_reads, found]
  · have other : afterKeyword? "load".toList (Text.trimStart text) = none := by
      rw [start]
      rfl
    simp only [Reader.firstOf, Pattern.reader, keyword_reads, found, other]

/-- The scheme of the project root in a call. -/
def callRoot : Pattern := .seq (.named rootCapture (.literal projectScheme) :: schemeMark)

/-- The pattern of a call behind its opening quote. -/
def callPath : List Pattern := [
  .notAhead (scheme userScheme),
  .optional callRoot,
  .named pathCapture pathWord,
  .literal "\"",
  .literal ")"]

theorem loadReference_pattern : loadReference.pattern =
    .seq (.first (loadKeywords.map .keyword) :: .literal "(" :: .literal "\"" :: callPath) := rfl

section

variable {text tail : List Char}

/-- A scheme mark takes the first two characters of the token behind the colon. -/
theorem schemeMark_strewn {letters : List Char} {more : List String}
    (strewn : Strewn (":" :: String.ofList ('/' :: '/' :: letters) :: more) text) :
    ∃ left, (Pattern.seq schemeMark).reader text = .ok ⟨letters ++ left, []⟩ ∧ Strewn more left := by
  obtain ⟨behind, colon, slashed⟩ := strewn
  obtain ⟨left, slashes, later⟩ := slashed
  rw [String.toList_ofList] at slashes
  refine ⟨left, ?_, later⟩
  exact seq_cons_ok (literal_reads ":" colon)
    (seq_cons_ok (literal_reads "//" slashes) (compositional_reader.seqNil _))

/-- A path is read up to its closing quote. -/
theorem target_strewn {target : PathWord} (start : Text.trimStart text = target.letters ++ tail)
    {more : List String} (strewn : Strewn ("\"" :: ")" :: more) tail) :
    ∃ rest, (Pattern.seq [.named pathCapture pathWord, .literal "\"", .literal ")"]).reader text =
      .ok ⟨rest, [⟨pathCapture, target.text⟩]⟩ := by
  have noBlank := (Pattern.CharClass.blankFree_iff
    (Pattern.CharClass.alphanumeric.including "-_/.")).1 (by decide)
  have stops := strewn.stops noBlank (by decide) (by decide)
  have path := named_reads pathCapture (target.reads start stops) start
    (trim_letters (isSolid_of_mem_path target))
  obtain ⟨behind, quote, closed⟩ := strewn
  obtain ⟨rest, close, -⟩ := closed
  exact ⟨rest, seq_cons_ok path (seq_cons_ok (literal_reads "\"" quote)
    (seq_cons_ok (literal_reads ")" close) (compositional_reader.seqNil _)))⟩

/-- A path without a scheme, also one that starts with the letters of a scheme. -/
theorem callPath_plain {target : PathWord} {more : List String}
    (strewn : Strewn (target.text :: "\"" :: ")" :: more) text) :
    ∃ rest, (Pattern.seq callPath).reader text =
      .ok ⟨rest, [⟨pathCapture, target.text⟩]⟩ := by
  obtain ⟨tail, start, closed⟩ := strewn
  obtain ⟨rest, quote, -⟩ := id closed
  rw [Lexeme.text, String.toList_ofList] at start
  have solid := isSolid_of_mem_path target
  have noForeign : (Pattern.notAhead (scheme userScheme)).reader text = .ok ⟨text, []⟩ := by
    refine compositional_reader.notAhead.2 ⟨rfl, schemed_fails ?_ solid start quote⟩
    exact fun found read => ⟨userScheme.toList, by decide, start_of_literal read⟩
  have noRoot : (Pattern.optional callRoot).reader text = .ok ⟨text, []⟩ := by
    have fails : ∃ stuck, callRoot.reader text = .error stuck := by
      refine schemed_fails ?_ solid start quote
      intro found read
      obtain ⟨inside, readLiteral, rfl⟩ := compositional_reader.named.1 read
      have front := start_of_literal readLiteral
      exact ⟨projectScheme.toList, by decide, front⟩
    obtain ⟨stuck, fails⟩ := fails
    rw [compositional_reader.optional, fails]
    rfl
  rw [callPath, seq_cons_silent noForeign, seq_cons_silent noRoot]
  exact target_strewn start closed

/-- A path under the project scheme is read without it, and the scheme is captured. -/
theorem callPath_rooted {target : PathWord} {more : List String}
    (strewn : Strewn (projectScheme :: ":" :: String.ofList ('/' :: '/' :: target.letters) ::
      "\"" :: ")" :: more) text) :
    ∃ rest, (Pattern.seq callPath).reader text =
      .ok ⟨rest, [⟨rootCapture, projectScheme⟩, ⟨pathCapture, target.text⟩]⟩ := by
  obtain ⟨behind, start, marked⟩ := strewn
  obtain ⟨tail, mark, closed⟩ := schemeMark_strewn marked
  have noForeign : (Pattern.notAhead (scheme userScheme)).reader text = .ok ⟨text, []⟩ := by
    refine compositional_reader.notAhead.2 ⟨rfl, ?_⟩
    cases outcome : (scheme userScheme).reader text with
    | error stuck => exact ⟨stuck, rfl⟩
    | ok whole =>
        obtain ⟨found, _, readUser, -, -⟩ := compositional_reader.seqCons.1 outcome
        have other := start_of_literal readUser
        rw [start] at other
        exact absurd (List.cons.inj other).1 (by decide)
  have named := named_reads rootCapture (literal_reads projectScheme start) start
    (trim_letters Scheme.project.name_solid.2)
  rw [String.ofList_toList] at named
  have root : (Pattern.optional callRoot).reader text =
      .ok ⟨target.letters ++ tail, [⟨rootCapture, projectScheme⟩]⟩ := by
    rw [compositional_reader.optional, callRoot, seq_cons_ok named mark]
    rfl
  have whole := trimStart_letters target.letters_ne_nil (isSolid_of_mem_path target) tail
  obtain ⟨rest, read⟩ := target_strewn whole closed
  rw [callPath, seq_cons_silent noForeign]
  exact ⟨rest, seq_cons_ok root read⟩

/-- A path under the user scheme is refused by the lookahead. -/
theorem callPath_foreign {letters : List Char} {more : List String}
    (strewn : Strewn (userScheme :: ":" :: String.ofList ('/' :: '/' :: letters) :: more) text) :
    ∃ stuck, (Pattern.seq callPath).reader text = .error stuck := by
  obtain ⟨behind, start, marked⟩ := strewn
  obtain ⟨tail, mark, -⟩ := schemeMark_strewn marked
  have isForeign := seq_cons_ok (literal_reads userScheme start) mark
  cases outcome : (Pattern.seq callPath).reader text with
  | error stuck => exact ⟨stuck, rfl⟩
  | ok whole =>
      obtain ⟨found, _, readAhead, -, -⟩ := compositional_reader.seqCons.1 outcome
      obtain ⟨-, stuck, fails⟩ := compositional_reader.notAhead.1 readAhead
      exact absurd (isForeign.symm.trans fails) (by simp)

/-- The keyword, the opening mark and the quote of a call are passed. -/
theorem loadReference_strewn {keyword : String} (isKeyword : keyword ∈ loadKeywords)
    {more : List String} (strewn : Strewn (keyword :: "(" :: "\"" :: more) text) :
    ∃ left, loadReference.pattern.reader text = (Pattern.seq callPath).reader left ∧
      Strewn more left := by
  obtain ⟨opened, start, called⟩ := strewn
  have boundary : Pattern.endsWord opened = true := by
    have stops := called.stops (fun c => Pattern.continuesIdentifier_of_isBlank) (by decide)
      (by decide +kernel)
    cases opened with
    | nil => rfl
    | cons c rest => simp [Pattern.endsWord, stops c rfl]
  obtain ⟨behind, opening, quoted⟩ := called
  obtain ⟨left, quote, later⟩ := quoted
  refine ⟨left, ?_, later⟩
  rw [loadReference_pattern, seq_cons_silent (loadKeyword_reads isKeyword start boundary),
    seq_cons_silent (literal_reads "(" opening), seq_cons_silent (literal_reads "\"" quote)]

end

/-! ## Windows of calls -/

section

variable {keyword : String} {target : PathWord} {index : Nat} {following : List String}

/-- The words of a window are strewn over its text. -/
theorem strewn_window {window : Window}
    (shape : ∀ token ∈ window.anchor :: window.following, IsWord token ∨ token = newline) :
    Strewn (words (window.anchor :: window.following)) (window.text none).toList :=
  (Token.strewn_spaced shape).of_trimStart (trimStart_join window.anchor window.following)

/-- A window of a source: its tokens are words and line ends, and no token but the closing mark
holds that mark. -/
structure Sourced (window : Window) : Prop where
  shape : ∀ token ∈ window.anchor :: window.following, IsWord token ∨ token = newline
  alone : Alone closeMark window

theorem sourced_of_suffix {window : Window} {text : List Char}
    (inStream : window.anchor :: window.following <:+ ofGodot text) : Sourced window where
  shape := fun token member => Token.isWord_or_newline_of_mem token (inStream.subset member)
  alone := fun token member =>
    Token.eq_mark_of_mem (by decide) token (inStream.subset member)

/-- Whatever follows it, a call is found with its path, and with the root if it has one. -/
theorem loadCall_parseWindow (isKeyword : keyword ∈ loadKeywords) {rooted : Bool}
    (sourced : Sourced ⟨index, keyword, following⟩)
    (call : callTokens keyword (if rooted then some .project else none) target <+:
      words (keyword :: following)) :
    ∃ stop, loadReference.parseWindow ⟨index, keyword, following⟩ =
      .ok ⟨(if rooted then [⟨rootCapture, projectScheme⟩] else []) ++
        [⟨pathCapture, target.text⟩], stop⟩ := by
  obtain ⟨more, call⟩ := call
  have strewn := strewn_window sourced.shape
  rw [← call, callTokens] at strewn
  obtain ⟨left, passed, later⟩ := loadReference_strewn isKeyword strewn
  rw [cut_loadReference.parseWindow_eq sourced.alone]
  cases rooted with
  | false =>
      obtain ⟨rest, read⟩ := callPath_plain later
      exact parse_of_reader_ok (passed.trans read)
  | true =>
      obtain ⟨rest, read⟩ := callPath_rooted later
      exact parse_of_reader_ok (passed.trans read)

/-- A call under the user scheme is refused. -/
theorem loadCall_foreign (isKeyword : keyword ∈ loadKeywords)
    (sourced : Sourced ⟨index, keyword, following⟩)
    (call : callTokens keyword (some .user) target <+: words (keyword :: following)) :
    ∃ mismatch, loadReference.parseWindow ⟨index, keyword, following⟩ = .error mismatch := by
  obtain ⟨more, call⟩ := call
  have strewn := strewn_window sourced.shape
  rw [← call, callTokens] at strewn
  obtain ⟨left, passed, later⟩ := loadReference_strewn isKeyword strewn
  obtain ⟨stuck, fails⟩ := callPath_foreign later
  rw [cut_loadReference.parseWindow_eq sourced.alone]
  exact parse_of_reader_error (passed.trans fails)

end

/-! ## Every match -/

/-- A match reads the opening mark and captures a path. -/
theorem loadReference_ok {text : List Char} {found : Reading}
    (read : loadReference.pattern.reader text = .ok found) :
    '(' ∈ text ∧ ∃ value, ⟨pathCapture, value⟩ ∈ found.captures := by
  rw [loadReference_pattern] at read
  obtain ⟨keyword, called, readKeyword, readCall, rfl⟩ := compositional_reader.seqCons.1 read
  obtain ⟨opening, quoted, readOpening, readQuoted, rfl⟩ :=
    compositional_reader.seqCons.1 readCall
  obtain ⟨quote, inside, -, readInside, rfl⟩ := compositional_reader.seqCons.1 readQuoted
  obtain ⟨native, rooted, -, readRooted, rfl⟩ := compositional_reader.seqCons.1 readInside
  obtain ⟨root, pathAndEnd, -, readPathAndEnd, rfl⟩ := compositional_reader.seqCons.1 readRooted
  obtain ⟨path, ending, readPath, -, rfl⟩ := compositional_reader.seqCons.1 readPathAndEnd
  obtain ⟨word, -, rfl⟩ := compositional_reader.named.1 readPath
  constructor
  · have opened : '(' ∈ Text.trimStart keyword.rest := by
      rw [start_of_literal readOpening]
      simp
    have ends := Pattern.shrinks_reader _ text keyword readKeyword
    exact ends.subset ((Text.trimStart_suffix keyword.rest).subset opened)
  · refine ⟨String.ofList (Text.trim (Reader.between (Text.trimStart root.rest) word.rest)), ?_⟩
    simp

/-- Where no opening mark follows, no call is found. -/
theorem loadReference_unopened {window : Window}
    (unopened : ∀ token ∈ window.anchor :: window.following, '(' ∉ token.toList) :
    ∃ mismatch, loadReference.parseWindow window = .error mismatch := by
  cases outcome : loadReference.parseWindow window with
  | error mismatch => exact ⟨mismatch, rfl⟩
  | ok found =>
      obtain ⟨rest, read⟩ := reader_of_parse_ok outcome
      have opened := (loadReference_ok read).1
      have shape : (window.text loadReference.terminal).toList =
          window.anchor.toList ++ spaced (Token.through closeToken window.following) :=
        Token.toList_join_cons _ _
      rw [shape] at opened
      rcases List.mem_append.1 opened with atAnchor | later
      · exact absurd atAnchor (unopened window.anchor List.mem_cons_self)
      · refine absurd later (Token.not_mem_spaced (by decide) fun token member => ?_)
        have inFollowing := (Token.through_isPrefix closeToken window.following).subset member
        exact unopened token (List.mem_cons_of_mem _ inFollowing)

end Grammar

end GodotGraph
