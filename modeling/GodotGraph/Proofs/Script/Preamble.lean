import GodotGraph.Proofs.Grammar.Declaration
import GodotGraph.Script

/-!
Contract: the preamble of a script as a scan of its tokens.

Owns:
- the scan without windows, in which the token after a keyword decides what is learned;
- its agreement with the scan of the windows;
- the module of a script, and the letters of the names that a preamble holds.
-/

set_option autoImplicit false

namespace GodotGraph.Script

namespace Preamble

open Grammar (nameOf?)
open Token (IsWord newline)

/-! ## The scan without windows -/

/-- The facts with one more learned from a keyword. -/
def learn (preamble : Preamble) (keyword name : String) : Preamble :=
  if keyword = Grammar.classNameKeyword then { preamble with className := some name }
  else { preamble with parent := some name }

/-- The keyword opens a name or an inheritance line. -/
def isFact (token : String) : Bool :=
  token = Grammar.classNameKeyword || token = Grammar.extendsKeyword

/-- Reads tokens from some known facts on; gives the final facts and the counts. -/
def read (preamble : Preamble) : List String → Preamble × List Count
  | [] => (preamble, [])
  | token :: rest =>
      if isFact token then
        match rest.head?.bind nameOf? with
        | some name =>
            let next := preamble.learn token name
            if next.isComplete then (next, [.hit])
            else ((next.read rest).1, .hit :: (next.read rest).2)
        | none => ((preamble.read rest).1, .miss :: (preamble.read rest).2)
      else if Grammar.bodyKeywords.contains token then (preamble, [])
      else preamble.read rest

/-- The tokens of a stream are words and newlines. -/
def Readable (tokens : List String) : Prop :=
  ∀ token ∈ tokens, IsWord token ∨ token = newline

theorem nameOf?_newline : nameOf? newline = none := by
  decide +kernel

/-- What a fact keyword captures. -/
def captureOf (keyword : String) : String :=
  if keyword = Grammar.classNameKeyword then Grammar.nameCapture else Grammar.parentCapture

theorem grammarFor?_cases (token : String) :
    match grammarFor? token with
    | some grammar =>
        isFact token = true ∧ IsWord token ∧ grammar.terminal = some newline ∧
          grammar.pattern = Grammar.declaration token (captureOf token)
    | none => isFact token = false := by
  by_cases className : token = Grammar.classNameKeyword
  · subst className
    exact ⟨rfl, by decide, rfl, rfl⟩
  · by_cases inherits : token = Grammar.extendsKeyword
    · subst inherits
      exact ⟨rfl, by decide, rfl, rfl⟩
    · simp [grammarFor?, isFact, className, inherits]

/-- The name that a fact keyword declares in front of some tokens. The window ends with the line,
so nothing after a newline is seen. -/
def declaredName? (following : List String) : Option String :=
  (Grammar.takeName? (Text.trimStart (Token.spaced (Token.through newline following)))).map
    fun taken => String.ofList taken.1

theorem fact_parseWindow {grammar : Grammar} {token : String}
    (found : grammarFor? token = some grammar) (index : Nat) (rest : List String) :
    Grammar.Captures (grammar.parseWindow ⟨index, token, rest⟩)
      ((declaredName? rest).map fun name => [⟨captureOf token, name⟩]) := by
  have shape := grammarFor?_cases token
  rw [found] at shape
  obtain ⟨_, isWord, terminal, form⟩ := shape
  have anchor : (Token.Window.mk index token rest).anchor = token := rfl
  have outcome := Grammar.declaration_parseWindow form isWord anchor
  rw [terminal] at outcome
  rw [declaredName?, Option.map_map]
  exact outcome

/-- Among words and newlines the next token decides. -/
theorem declaredName?_of_readable {rest : List String} (readable : Readable rest) :
    declaredName? rest = rest.head?.bind nameOf? := by
  cases rest with
  | nil => decide +kernel
  | cons next others =>
      rcases readable next List.mem_cons_self with isWord | rfl
      · have other : next ≠ newline := by
          rintro rfl
          exact absurd (isWord.2 '\n' (by decide)) (by decide)
        have filled : next.toList ≠ [] := fun empty =>
          isWord.1 (String.toList_eq_nil_iff.1 empty)
        rw [declaredName?, Token.through, if_neg other, Token.trimStart_spaced isWord,
          Grammar.takeName?_append filled (Token.endsWord_spaced _), Option.map_map]
        rfl
      · rw [declaredName?, Token.through, if_pos rfl, List.head?_cons, Option.bind_some,
          nameOf?_newline]
        decide +kernel

/-- An attempt learns the declared name, if there is one. -/
theorem absorb_parseWindow {grammar : Grammar} {token : String}
    (found : grammarFor? token = some grammar) (index : Nat) (rest : List String)
    (preamble : Preamble) :
    let attempt := grammar.parseWindow ⟨index, token, rest⟩
    match declaredName? rest with
    | some name =>
        Count.ofAttempt attempt = .hit ∧ preamble.absorb token attempt = preamble.learn token name
    | none => Count.ofAttempt attempt = .miss ∧ preamble.absorb token attempt = preamble := by
  have outcome := fact_parseWindow found index rest
  cases named : declaredName? rest with
  | none =>
      rw [named] at outcome
      obtain ⟨mismatch, run⟩ := outcome
      rw [run]
      exact ⟨rfl, rfl⟩
  | some name =>
      rw [named] at outcome
      obtain ⟨stop, run⟩ := outcome
      rw [run]
      refine ⟨rfl, ?_⟩
      by_cases className : token = Grammar.classNameKeyword
      · simp [absorb, learn, captureOf, className, Grammar.Match.first?]
      · simp [absorb, learn, captureOf, className, Grammar.Match.first?]

/-- Both scans learn and count the same. -/
theorem scan_windowsFrom (preamble : Preamble) (index : Nat) {tokens : List String}
    (readable : Readable tokens) :
    preamble.scan (Token.windowsFrom index tokens) = preamble.read tokens := by
  induction tokens generalizing preamble index with
  | nil => rfl
  | cons token rest inductionHypothesis =>
      have restReadable : Readable rest := fun other member =>
        readable other (List.mem_cons_of_mem _ member)
      have shape := grammarFor?_cases token
      -- A name that is learned is not skipped, so both go on with the very next token.
      rw [Token.windowsFrom, scan, read]
      cases found : grammarFor? token with
      | none =>
          rw [found] at shape
          simp only [shape, Bool.false_eq_true, if_false]
          rw [inductionHypothesis preamble (index + 1) restReadable]
      | some grammar =>
          rw [found] at shape
          have step := absorb_parseWindow found index rest preamble
          rw [declaredName?_of_readable restReadable] at step
          simp only [shape.1, if_true]
          cases named : rest.head?.bind nameOf? with
          | none =>
              rw [named] at step
              obtain ⟨missed, same⟩ := step
              simp only [missed, same, reduceCtorEq, decide_false, Bool.false_and,
                Bool.false_eq_true, if_false]
              rw [inductionHypothesis preamble (index + 1) restReadable]
          | some name =>
              rw [named] at step
              obtain ⟨hit, learned⟩ := step
              simp only [hit, learned, decide_true, Bool.true_and]
              rw [inductionHypothesis (preamble.learn token name) (index + 1) restReadable]

/-! ## Names -/

/-- The name is an identifier, as far as its letters go. -/
def Lettered (name : String) : Prop :=
  ∀ c ∈ name.toList, Grammar.continuesName c = true

theorem lettered_of_nameOf? {token name : String} (named : nameOf? token = some name) :
    Lettered name := by
  rw [nameOf?, Option.map_eq_some_iff] at named
  obtain ⟨taken, found, rfl⟩ := named
  intro c member
  rw [String.toList_ofList] at member
  exact (Grammar.takeName?_eq_some found).2.2 c member

/-- A scan learns no name but identifiers. -/
theorem className_read {preamble : Preamble} {tokens : List String}
    (known : ∀ name, preamble.className = some name → Lettered name) :
    ∀ name, (preamble.read tokens).1.className = some name → Lettered name := by
  induction tokens generalizing preamble with
  | nil => exact known
  | cons token rest inductionHypothesis =>
      rw [read]
      split
      · split
        · next name named =>
            have learned : ∀ other, (preamble.learn token name).className = some other →
                Lettered other := by
              obtain ⟨next, _, taken⟩ := Option.bind_eq_some_iff.1 named
              intro other isName
              by_cases className : token = Grammar.classNameKeyword
              · obtain rfl : name = other := by simpa [learn, className] using isName
                exact lettered_of_nameOf? taken
              · exact known other (by simpa [learn, className] using isName)
            dsimp only
            split
            · exact learned
            · exact inductionHypothesis learned
        · exact inductionHypothesis known
      · split
        · exact known
        · exact inductionHypothesis known

end Preamble

theorem readable_ofSource (text : String) : Preamble.Readable (Token.ofSource text) := by
  intro token member
  exact Token.isWord_or_newline_of_mem token member

theorem preamble_ofSource (text : String) :
    preamble (Token.ofSource text) = Preamble.empty.read (Token.ofSource text) :=
  Preamble.scan_windowsFrom Preamble.empty 0 (readable_ofSource text)

theorem moduleName_extract (rootName : String) (source : SourceFile) (key : String) :
    (extract rootName source key).file.moduleName =
      (preamble (Token.ofSource source.text)).1.className.getD "" := by
  simp only [extract]

theorem lettered_className {text name : String}
    (named : (preamble (Token.ofSource text)).1.className = some name) :
    Preamble.Lettered name := by
  rw [preamble_ofSource] at named
  refine Preamble.className_read ?_ name named
  intro other known
  exact absurd known (by simp [Preamble.empty])

end GodotGraph.Script
