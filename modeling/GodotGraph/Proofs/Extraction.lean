import GodotGraph.Extraction

/-!
Contract: attempts of a grammar along a stream.

Owns: the attempts of a grammar, token by token, in particular of one that is tried wherever
some keyword stands.

Where a window stands in the stream makes no difference to an attempt, only what
follows does.
-/

set_option autoImplicit false

namespace GodotGraph

@[simp] theorem matchesOf_ok_cons (found : Grammar.Match) (rest : List Attempt) :
    matchesOf (.ok found :: rest) = found :: matchesOf rest :=
  rfl

@[simp] theorem matchesOf_error_cons (mismatch : Pattern.Mismatch) (rest : List Attempt) :
    matchesOf (.error mismatch :: rest) = matchesOf rest :=
  rfl

theorem matchesOf_append (first second : List Attempt) :
    matchesOf (first ++ second) = matchesOf first ++ matchesOf second :=
  List.filterMap_append

namespace Grammar

theorem attempts_windowsFrom (grammar : Grammar) (applies : String → List String → Bool)
    (tokens : List String) (first second : Nat) :
    ((Token.windowsFrom first tokens).filter fun window =>
          applies window.anchor window.following).map grammar.parseWindow =
      ((Token.windowsFrom second tokens).filter fun window =>
          applies window.anchor window.following).map grammar.parseWindow := by
  induction tokens generalizing first second with
  | nil => rfl
  | cons token rest inductionHypothesis =>
      have later := inductionHypothesis (first + 1) (second + 1)
      cases tried : applies token rest with
      | false => simpa [Token.windowsFrom, tried] using later
      | true =>
          have same : grammar.parseWindow ⟨first, token, rest⟩ =
              grammar.parseWindow ⟨second, token, rest⟩ := rfl
          simp [Token.windowsFrom, tried, later, same]

/-- The first window is tried if the grammar applies to it, and then the others are. -/
theorem attempts_window_cons (grammar : Grammar) (applies : String → List String → Bool)
    (token : String) (rest : List String) :
    grammar.attempts (fun window => applies window.anchor window.following) (token :: rest) =
      (if applies token rest then [grammar.parseWindow ⟨0, token, rest⟩] else []) ++
        grammar.attempts (fun window => applies window.anchor window.following) rest := by
  have later := attempts_windowsFrom grammar applies rest 1 0
  cases tried : applies token rest with
  | false => simpa [attempts, Token.windows, Token.windowsFrom, tried] using later
  | true => simpa [attempts, Token.windows, Token.windowsFrom, tried] using later

/-- The first token is tried if it is a keyword, and then the others are. -/
theorem attempts_cons (grammar : Grammar) (opens : String → Bool) (token : String)
    (rest : List String) :
    grammar.attempts (fun window => opens window.anchor) (token :: rest) =
      (if opens token then [grammar.parseWindow ⟨0, token, rest⟩] else []) ++
        grammar.attempts (fun window => opens window.anchor) rest :=
  attempts_window_cons grammar (fun anchor _ => opens anchor) token rest

theorem attempts_append_of_none (grammar : Grammar) {opens : String → Bool} {tokens : List String}
    (none : ∀ token ∈ tokens, opens token = false) (rest : List String) :
    grammar.attempts (fun window => opens window.anchor) (tokens ++ rest) =
      grammar.attempts (fun window => opens window.anchor) rest := by
  induction tokens with
  | nil => rfl
  | cons token others inductionHypothesis =>
      rw [List.cons_append, attempts_cons, none token List.mem_cons_self,
        inductionHypothesis fun other member => none other (List.mem_cons_of_mem _ member)]
      rfl

end Grammar

end GodotGraph
