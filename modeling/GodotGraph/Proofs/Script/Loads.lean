import GodotGraph.Proofs.Grammar.LoadCall
import GodotGraph.Proofs.Script.Comments.Loads

/-!
Contract: the load calls of a script.

Owns:
- the references of a stream, one for each load word that is counted as a hit;
- scripts that are a single call, with any blanks between its tokens.

Does not own: what comments change about load calls.

The path of a call may be a load word again. It is counted then, as a miss: nothing opens a call
behind it.
-/

set_option autoImplicit false

namespace GodotGraph.Script

open Grammar (PathWord Scheme callText callTokens loadKeywords loadReference)
open Token (Spread Window newline words)

/-! ## Hits -/

/-- The window opens a load call that matches. -/
def isHit (window : Window) : Bool :=
  isLoadWord window.anchor && (loadReference.parseWindow window).isOk

/-- What is found has a path, so it is a reference. -/
theorem exists_reference {window : Window} {found : Grammar.Match}
    (matched : loadReference.parseWindow window = .ok found) :
    ∃ reference, loadReference? found = some reference := by
  obtain ⟨rest, read⟩ := Grammar.reader_of_parse_ok matched
  obtain ⟨-, value, captured⟩ := Grammar.loadReference_ok read
  cases path : found.first? Grammar.pathCapture with
  | none =>
      have absent := List.find?_eq_none.1 (Option.map_eq_none_iff.1 path) _ captured
      simp at absent
  | some target =>
      refine ⟨⟨.load, target, found.has Grammar.rootCapture⟩, ?_⟩
      rw [loadReference?, path]
      rfl

/-- The windows of a call that match have one reference each, in their order. -/
theorem forall₂_references (windows : List Window) :
    List.Forall₂
      (fun window reference => ∃ found, loadReference.parseWindow window = .ok found ∧
        loadReference? found = some reference)
      (windows.filter fun window => (loadReference.parseWindow window).isOk)
      ((matchesOf (windows.map loadReference.parseWindow)).filterMap loadReference?) := by
  induction windows with
  | nil => exact .nil
  | cons window others inductionHypothesis =>
      rw [List.filter_cons, List.map_cons]
      cases outcome : loadReference.parseWindow window with
      | error mismatch => exact inductionHypothesis
      | ok found =>
          obtain ⟨reference, named⟩ := exists_reference outcome
          rw [matchesOf_ok_cons, List.filterMap_cons_some named]
          exact .cons ⟨found, outcome, named⟩ inductionHypothesis

theorem forall₂_loads (tokens : List String) :
    List.Forall₂
      (fun window reference => ∃ found, loadReference.parseWindow window = .ok found ∧
        loadReference? found = some reference)
      ((Token.windows tokens).filter isHit) (loads tokens) := by
  have hits : (Token.windows tokens).filter isHit =
      ((Token.windows tokens).filter fun window => loadKeywords.contains window.anchor).filter
        fun window => (loadReference.parseWindow window).isOk := by
    rw [List.filter_filter]
    apply List.filter_congr
    intro window _
    exact Bool.and_comm _ _
  rw [hits]
  exact forall₂_references _

/-- There are as many references as hits. -/
theorem length_loads (tokens : List String) :
    (loads tokens).length = (Tally.ofCounts (countsOf (loadAttempts tokens))).hits := by
  have complete : ∀ found ∈ matchesOf (loadAttempts tokens), (loadReference? found).isSome := by
    intro found member
    obtain ⟨attempt, inAttempts, isMatch⟩ := List.mem_filterMap.1 member
    obtain ⟨window, -, rfl⟩ := List.mem_map.1 inAttempts
    cases outcome : loadReference.parseWindow window with
    | error mismatch =>
        rw [outcome] at isMatch
        cases isMatch
    | ok other =>
        rw [outcome] at isMatch
        obtain rfl : other = found := Option.some.inj isMatch
        exact Option.isSome_iff_exists.2 (exists_reference outcome)
  calc (loads tokens).length
      = (matchesOf (loadAttempts tokens)).countP fun found => (loadReference? found).isSome :=
        List.length_filterMap_eq_countP
    _ = (matchesOf (loadAttempts tokens)).length := List.countP_eq_length.2 complete
    _ = (countsOf (loadAttempts tokens)).count .hit := length_matchesOf (loadAttempts tokens)

/-! ## Scripts of one call -/

/-- Load words with no opening mark behind them are misses. -/
theorem matchesOf_loadAttempts_unopened {tokens : List String}
    (unopened : ∀ token ∈ tokens, '(' ∉ token.toList) : matchesOf (loadAttempts tokens) = [] := by
  induction tokens with
  | nil => rfl
  | cons token rest inductionHypothesis =>
      have later := inductionHypothesis fun other member =>
        unopened other (List.mem_cons_of_mem _ member)
      rw [loadAttempts_cons, matchesOf_append, later, List.append_nil, loadAttempt]
      split
      · have fails : ∃ mismatch, loadReference.parseWindow ⟨0, token, rest⟩ = .error mismatch :=
          Grammar.loadReference_unopened unopened
        obtain ⟨mismatch, failed⟩ := fails
        rw [failed]
        rfl
      · rfl

section

variable {keyword : String} {scheme? : Option Scheme} {target : PathWord} {text : String}

/-- The first attempt is on the call, and the others are on what follows its keyword. -/
theorem loadAttempts_call (isKeyword : keyword ∈ loadKeywords)
    (spread : Spread (Token.ofSource (callText keyword scheme? target)) text.toList) :
    ∃ following, keyword :: following <:+ Token.ofSource text ∧
      words (keyword :: following) = callTokens keyword scheme? target ∧
        loadAttempts (Token.ofSource text) =
          loadReference.parseWindow ⟨0, keyword, following⟩ :: loadAttempts following := by
  have call : words (Token.ofSource text) = callTokens keyword scheme? target :=
    Grammar.words_of_call isKeyword spread
  have isWord := (Grammar.isWhole_loadKeyword keyword isKeyword).1
  obtain ⟨front, following, stream, lineEnds, later⟩ := Token.exists_of_words_eq_cons call
  refine ⟨following, ⟨front, stream.symm⟩, ?_, ?_⟩
  · rw [Token.words_word_cons isWord, later]
    rfl
  · have quiet : ∀ token ∈ front, isLoadWord token = false := by
      intro token member
      rw [lineEnds token member]
      decide
    have opens : isLoadWord keyword = true := by simpa [isLoadWord] using isKeyword
    rw [stream, loadAttempts_append_of_not_isLoadWord quiet, loadAttempts_cons, loadAttempt,
      if_pos opens]
    rfl

/-- Nothing behind the keyword of a call is found, be it a load word or not. -/
theorem matchesOf_loadAttempts_inside {following : List String}
    (inStream : keyword :: following <:+ Token.ofSource text)
    (call : words (keyword :: following) = callTokens keyword scheme? target)
    (isKeyword : keyword ∈ loadKeywords) : matchesOf (loadAttempts following) = [] := by
  have isWord := (Grammar.isWhole_loadKeyword keyword isKeyword).1
  rw [Token.words_word_cons isWord, callTokens, List.cons.injEq] at call
  obtain ⟨front, inside, shape, lineEnds, later⟩ := Token.exists_of_words_eq_cons call.2
  have quiet : ∀ token ∈ front ++ ["("], isLoadWord token = false := by
    intro token member
    rcases List.mem_append.1 member with inFront | isOpening
    · rw [lineEnds token inFront]
      decide
    · rw [List.mem_singleton.1 isOpening]
      decide
  have split : following = (front ++ ["("]) ++ inside := by simp [shape]
  rw [split, loadAttempts_append_of_not_isLoadWord quiet]
  apply matchesOf_loadAttempts_unopened
  intro token member opened
  have inSource : token ∈ Token.ofSource text := by
    apply inStream.subset
    rw [split]
    simp [member]
  -- A token with the mark in it would be the mark, and no word behind the first one is.
  obtain rfl : token = "(" := Token.eq_mark_of_mem (by decide) token inSource opened
  have inWords : "(" ∈ words inside :=
    List.mem_filter.2 ⟨member, by decide⟩
  have notField := (Grammar.Field.path scheme? target).ne_of_mem_tokens
    (show Token.isSolid '(' = false by decide) (by decide)
  rw [later] at inWords
  simp [Grammar.Field.tokens] at notField
  simp [notField] at inWords

/-- A call is a hit with one reference. -/
theorem loads_call (isKeyword : keyword ∈ loadKeywords) {rooted : Bool}
    (spread : Spread (Token.ofSource
      (callText keyword (if rooted then some .project else none) target)) text.toList) :
    loads (Token.ofSource text) = [⟨.load, target.text, rooted⟩] ∧
      (Tally.ofCounts (countsOf (loadAttempts (Token.ofSource text)))).hits = 1 := by
  obtain ⟨following, inStream, call, attempts⟩ := loadAttempts_call isKeyword spread
  have whole : callTokens keyword (if rooted then some .project else none) target <+:
      words (keyword :: following) := by rw [call]
  obtain ⟨stop, found⟩ := Grammar.loadCall_parseWindow isKeyword
    (Grammar.sourced_of_suffix inStream) whole
  have references : loads (Token.ofSource text) = [⟨.load, target.text, rooted⟩] := by
    rw [loads, attempts, found, matchesOf_ok_cons,
      matchesOf_loadAttempts_inside inStream call isKeyword]
    cases rooted <;> rfl
  refine ⟨references, ?_⟩
  rw [← length_loads, references]
  rfl

/-- Behind the keyword of a call with a scheme no load word comes: the path is part of a token that
starts with a slash. -/
theorem not_isLoadWord_inside {scheme : Scheme} (notLoad : isLoadWord scheme.name = false)
    {following : List String}
    (call : words following =
      "(" :: "\"" :: ((Grammar.Field.path (some scheme) target).valueTokens ++ ["\"", ")"])) :
    ∀ token ∈ following, isLoadWord token = false := by
  intro token member
  by_cases lineEnd : token = newline
  · rw [lineEnd]
    decide
  have inCall : token ∈ words following := List.mem_filter.2 ⟨member, by simpa using lineEnd⟩
  simp only [call, Grammar.Field.valueTokens, Grammar.Field.scheme?, List.cons_append,
    List.nil_append, List.mem_cons, List.not_mem_nil, or_false] at inCall
  have noSlash : ∀ word ∈ loadKeywords, word.toList.head? ≠ some '/' := by decide
  rcases inCall with rfl | rfl | rfl | rfl | rfl | rfl | rfl
  · decide
  · decide
  · exact notLoad
  · decide
  · by_contra loads
    have isLoad : String.ofList ('/' :: '/' :: target.letters) ∈ loadKeywords :=
      List.contains_iff_mem.1 (Bool.of_not_eq_false loads)
    apply noSlash _ isLoad
    rw [String.toList_ofList]
    rfl
  · decide
  · decide

/-- A call under the user scheme is a miss. -/
theorem loads_foreign (isKeyword : keyword ∈ loadKeywords)
    (spread : Spread (Token.ofSource (callText keyword (some .user) target)) text.toList) :
    loads (Token.ofSource text) = [] ∧
      Tally.ofCounts (countsOf (loadAttempts (Token.ofSource text))) = ⟨0, 1⟩ := by
  obtain ⟨following, inStream, call, attempts⟩ := loadAttempts_call isKeyword spread
  have whole : callTokens keyword (some .user) target <+: words (keyword :: following) := by
    rw [call]
  obtain ⟨mismatch, failed⟩ := Grammar.loadCall_foreign isKeyword
    (Grammar.sourced_of_suffix inStream) whole
  have isWord := (Grammar.isWhole_loadKeyword keyword isKeyword).1
  rw [Token.words_word_cons isWord, callTokens, List.cons.injEq] at call
  have silent : loadAttempts following = [] := by
    have quiet := not_isLoadWord_inside (by decide) call.2
    rw [← List.append_nil following, loadAttempts_append_of_not_isLoadWord quiet]
    rfl
  rw [loads, attempts, failed, silent]
  exact ⟨rfl, rfl⟩

end

/-- A call is found with its path, and a call under the user scheme is a miss, whatever blanks
stand between their tokens. The references of any stream are those of its hits, in stream order,
and each load word is counted once. -/
theorem loads_exact :
    (∀ keyword ∈ loadKeywords, ∀ (target : PathWord) (text : String),
      (∀ rooted : Bool,
        Spread (Token.ofSource
            (callText keyword (if rooted then some .project else none) target)) text.toList →
          loads (Token.ofSource text) = [⟨.load, target.text, rooted⟩] ∧
            (Tally.ofCounts (countsOf (loadAttempts (Token.ofSource text)))).hits = 1) ∧
      (Spread (Token.ofSource (callText keyword (some .user) target)) text.toList →
        loads (Token.ofSource text) = [] ∧
          Tally.ofCounts (countsOf (loadAttempts (Token.ofSource text))) = ⟨0, 1⟩)) ∧
    ∀ tokens : List String,
      List.Forall₂
        (fun window reference => ∃ found, loadReference.parseWindow window = .ok found ∧
          loadReference? found = some reference)
        ((Token.windows tokens).filter isHit) (loads tokens) ∧
      (loads tokens).length = (Tally.ofCounts (countsOf (loadAttempts tokens))).hits ∧
      (Tally.ofCounts (countsOf (loadAttempts tokens))).hits +
          (Tally.ofCounts (countsOf (loadAttempts tokens))).misses =
        tokens.countP isLoadWord := by
  constructor
  · intro keyword isKeyword target text
    constructor
    · intro rooted spread
      exact loads_call isKeyword spread
    · intro spread
      exact loads_foreign isKeyword spread
  · intro tokens
    refine ⟨forall₂_loads tokens, length_loads tokens, ?_⟩
    rw [Tally.hits_add_misses, countsOf, List.length_map, length_loadAttempts]

/-- A path that starts with the name of one scheme and goes on with that of the other. -/
def resUser : PathWord := ⟨"res/user.gd".toList, by decide⟩

theorem loads_exact_resUser :
    loads (Token.ofSource "preload\t(\n\"res :\n//res/user.gd\" )") =
        [⟨.load, "res/user.gd", true⟩] ∧
      loads (Token.ofSource "load (\" res/user.gd\n\")") = [⟨.load, "res/user.gd", false⟩] ∧
        Tally.ofCounts (countsOf (loadAttempts
          (Token.ofSource "load(\"user:\t//res/user.gd\")"))) = ⟨0, 1⟩ := by
  have spreadRooted := Token.spread_of_gaps [("preload", "\t".toList), ("(", "\n".toList),
    ("\"", []), ("res", " ".toList), (":", "\n".toList), ("//res/user.gd", []),
    ("\"", " ".toList)] ")" (by decide)
  have spreadPlain := Token.spread_of_gaps [("load", " ".toList), ("(", []),
    ("\"", " ".toList), ("res/user.gd", "\n".toList), ("\"", [])] ")" (by decide)
  have spreadUser := Token.spread_of_gaps [("load", []), ("(", []), ("\"", []), ("user", []),
    (":", "\t".toList), ("//res/user.gd", []), ("\"", [])] ")" (by decide)
  have preloads := loads_exact.1 "preload" (by decide) resUser
    "preload\t(\n\"res :\n//res/user.gd\" )"
  have plain := loads_exact.1 "load" (by decide) resUser "load (\" res/user.gd\n\")"
  have foreign := loads_exact.1 "load" (by decide) resUser "load(\"user:\t//res/user.gd\")"
  refine ⟨(preloads.1 true ?_).1, (plain.1 false ?_).1, (foreign.2 ?_).2⟩
  · rw [Grammar.ofSource_callText (by decide)]
    exact spreadRooted
  · rw [Grammar.ofSource_callText (by decide)]
    exact spreadPlain
  · rw [Grammar.ofSource_callText (by decide)]
    exact spreadUser

end GodotGraph.Script
