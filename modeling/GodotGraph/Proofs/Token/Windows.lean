import GodotGraph.Token.Window
import Mathlib.Data.List.Basic

/-!
Contract: the windows of a stream.

Owns:
- the place of each window, where the stream goes on with the tokens of the window;
- the tokens up to a terminal, which are all tokens if it does not occur.

Does not own: the text of a window.
-/

set_option autoImplicit false

namespace GodotGraph.Token

/-! ## Places -/

theorem map_anchor_windowsFrom (index : Nat) (tokens : List String) :
    (windowsFrom index tokens).map (fun window => window.anchor) = tokens := by
  induction tokens generalizing index with
  | nil => rfl
  | cons token rest inductionHypothesis =>
      rw [windowsFrom, List.map_cons, inductionHypothesis]

theorem drop_windowsFrom (index place : Nat) (tokens : List String) :
    (windowsFrom index tokens).drop place = windowsFrom (index + place) (tokens.drop place) := by
  induction tokens generalizing index place with
  | nil => simp [windowsFrom]
  | cons token rest inductionHypothesis =>
      cases place with
      | zero => rfl
      | succ fewer =>
          have shift : index + (fewer + 1) = index + 1 + fewer := by omega
          rw [windowsFrom, List.drop_succ_cons, inductionHypothesis, List.drop_succ_cons, shift]

theorem exists_place_of_mem_windowsFrom {start : Nat} {tokens : List String} {window : Window}
    (member : window ∈ windowsFrom start tokens) :
    ∃ place, window.index = start + place ∧
      tokens.drop place = window.anchor :: window.following := by
  obtain ⟨place, atPlace⟩ := List.mem_iff_getElem?.1 member
  refine ⟨place, ?_⟩
  rw [← List.head?_drop, drop_windowsFrom] at atPlace
  cases left : tokens.drop place with
  | nil => simp [left, windowsFrom] at atPlace
  | cons anchor following =>
      rw [left] at atPlace
      obtain rfl : ⟨start + place, anchor, following⟩ = window := Option.some.inj atPlace
      exact ⟨rfl, rfl⟩

/-- A window stands at its index. -/
theorem drop_index_of_mem_windows {tokens : List String} {window : Window}
    (member : window ∈ windows tokens) :
    tokens.drop window.index = window.anchor :: window.following := by
  obtain ⟨place, isIndex, left⟩ := exists_place_of_mem_windowsFrom member
  rwa [isIndex, Nat.zero_add]

theorem suffix_of_mem_windowsFrom {index : Nat} {tokens : List String} {window : Window}
    (inside : window ∈ windowsFrom index tokens) :
    window.anchor :: window.following <:+ tokens := by
  obtain ⟨place, -, left⟩ := exists_place_of_mem_windowsFrom inside
  rw [← left]
  exact List.drop_suffix place tokens

/-! ## Terminals -/

section Terminal

variable {terminal : String}

theorem through_append_of_not_mem {front : List String} (absent : terminal ∉ front)
    (rest : List String) : through terminal (front ++ rest) = front ++ through terminal rest := by
  induction front with
  | nil => rfl
  | cons token others inductionHypothesis =>
      obtain ⟨other, later⟩ : terminal ≠ token ∧ terminal ∉ others := by simpa using absent
      rw [List.cons_append, through, if_neg (Ne.symm other), inductionHypothesis later]
      rfl

theorem through_of_not_mem {tokens : List String} (absent : terminal ∉ tokens) :
    through terminal tokens = tokens := by
  have whole := through_append_of_not_mem absent []
  rwa [through, List.append_nil] at whole

theorem through_append_cons {front : List String} (absent : terminal ∉ front)
    (back : List String) : through terminal (front ++ terminal :: back) = front ++ [terminal] := by
  rw [through_append_of_not_mem absent, through, if_pos rfl]

theorem through_eq_of_prefix {front whole : List String} (starts : front <+: whole)
    (closed : terminal ∈ front) : through terminal front = through terminal whole := by
  obtain ⟨rest, rfl⟩ := starts
  obtain ⟨before, after, rfl, absent⟩ := List.eq_append_cons_of_mem closed
  rw [through_append_cons absent, List.append_assoc, List.cons_append, through_append_cons absent]

theorem through_eq_take (tokens : List String) :
    through terminal tokens = tokens.take (tokens.idxOf terminal + 1) := by
  induction tokens with
  | nil => rfl
  | cons token rest inductionHypothesis =>
      by_cases same : token = terminal
      · simp [through, same]
      · rw [through, if_neg same, inductionHypothesis, List.idxOf_cons_ne _ same,
          List.take_succ_cons]

end Terminal

end GodotGraph.Token
