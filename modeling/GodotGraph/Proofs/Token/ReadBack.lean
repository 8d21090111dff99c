import GodotGraph.Proofs.Grammar.Declaration
import GodotGraph.Proofs.Token.Cut

/-!
Contract: tokens that are written out and read again.

Owns:
- tokens of a Godot text, each of which is the stream of its own text;
- tokens joined with single spaces, which are read back;
- the text of a window, which is read as the tokens of the window.

Does not own: tokens joined in any other way.

Padding a mark that stands apart already adds blanks and no token. A word has no mark in it, so
that it is not padded a second time.
-/

set_option autoImplicit false

namespace GodotGraph.Token

/-! ## One token -/

/-- A token of a Godot text is read from its own text. -/
theorem ofGodot_of_mem_ofGodot {text : List Char} {token : String} (member : token ∈ ofGodot text) :
    ofGodot token.toList = [token] := by
  rcases isWord_or_newline_of_mem token member with ⟨filled, noBlank⟩ | rfl
  · by_cases marked : ∃ mark ∈ Padding.godotMarks, mark ∈ token.toList
    · obtain ⟨mark, isMark, inside⟩ := marked
      rw [eq_mark_of_mem isMark token member inside, String.toList_ofList]
      exact ofGodot_append_mark [] [] isMark
    · have solid : ∀ c ∈ token.toList, isSolid c = true := by
        intro c inside
        have unmarked : c ∉ Padding.godotMarks := fun isMark => marked ⟨c, isMark, inside⟩
        simp [isSolid, isBreak, noBlank c inside, unmarked]
      rw [ofGodot_solid (mt String.toList_eq_nil_iff.1 filled) solid, String.ofList_toList]
  · exact ofGodot_append_newline [] []

/-! ## Joined tokens -/

theorem ofGodot_append_spaced (first : List Char) (tokens : List String) :
    ofGodot (first ++ spaced tokens) = ofGodot first ++ ofGodot (spaced tokens) := by
  refine ofGodot_append_of_head? ?_ first
  cases tokens with
  | nil => simp
  | cons token rest =>
      rw [spaced_cons]
      rintro c ⟨⟩
      rfl

theorem ofGodot_spaced {tokens : List String}
    (whole : ∀ token ∈ tokens, ofGodot token.toList = [token]) :
    ofGodot (spaced tokens) = tokens := by
  induction tokens with
  | nil => rfl
  | cons token rest inductionHypothesis =>
      obtain ⟨first, later⟩ := List.forall_mem_cons.1 whole
      have isSpace : Text.isBlank ' ' = true := by decide
      have skipped := ofGodot_append_blank [] (token.toList ++ spaced rest) isSpace (by decide)
      rw [List.nil_append, ofGodot_nil, List.nil_append] at skipped
      rw [spaced_cons, skipped, ofGodot_append_spaced, first, inductionHypothesis later,
        List.singleton_append]

theorem ofGodot_join {token : String} {rest : List String}
    (whole : ∀ other ∈ token :: rest, ofGodot other.toList = [other]) :
    ofGodot (join (token :: rest)).toList = token :: rest := by
  obtain ⟨first, later⟩ := List.forall_mem_cons.1 whole
  rw [toList_join_cons, ofGodot_append_spaced, first, ofGodot_spaced later, List.singleton_append]

/-! ## Windows -/

/-- The tokens up to and including the first terminal; all of them without a terminal, or if it
does not occur. -/
def upTo (terminal : Option String) (tokens : List String) : List String :=
  match terminal with
  | some token => tokens.take (tokens.idxOf token + 1)
  | none => tokens

theorem within_eq_upTo (terminal : Option String) (tokens : List String) :
    within terminal tokens = upTo terminal tokens := by
  cases terminal with
  | none => rfl
  | some token => exact through_eq_take tokens

theorem upTo_subset (terminal : Option String) (tokens : List String) :
    upTo terminal tokens ⊆ tokens := by
  cases terminal with
  | none => exact List.Subset.refl _
  | some token => exact List.take_subset _ _

/-- The text of a window is read as its anchor and the tokens up to the first terminal. The text
of the first window without a terminal is read as the whole stream. -/
theorem window_reads_back {source : String} {window : Window}
    (member : window ∈ windows (ofSource source)) (terminal : Option String) :
    ofSource (window.text terminal) = window.anchor :: upTo terminal window.following ∧
      (window.index = 0 → ofSource (window.text none) = ofSource source) := by
  have place := drop_index_of_mem_windows member
  have whole : ∀ token ∈ window.anchor :: window.following, ofGodot token.toList = [token] :=
    fun token inWindow => ofGodot_of_mem_ofGodot (List.mem_of_mem_drop (place ▸ inWindow))
  have reads : ∀ stop : Option String,
      ofSource (window.text stop) = window.anchor :: upTo stop window.following := by
    intro stop
    rw [Window.text, within_eq_upTo]
    exact ofGodot_join fun token inText =>
      whole token (List.cons_subset_cons _ (upTo_subset stop _) inText)
  refine ⟨reads terminal, fun first => ?_⟩
  rw [reads none]
  rw [first, List.drop_zero] at place
  exact place.symm

/-- The window of a load call whose path goes on in the next line. -/
def loadWindow : Window :=
  ⟨0, "load", ["(", "\"", "a", "\n", "b", "\"", ")"]⟩

theorem window_reads_back_load :
    loadWindow ∈ windows (ofSource "load(\"a\n b\")") ∧
      ofSource (loadWindow.text (some "\n")) = ["load", "(", "\"", "a", "\n"] ∧
        ofSource (loadWindow.text none) = ofSource "load(\"a\n b\")" := by
  have stream : ofSource "load(\"a\n b\")" = loadWindow.anchor :: loadWindow.following := by
    decide +kernel
  have member : loadWindow ∈ windows (ofSource "load(\"a\n b\")") := by
    rw [stream]
    exact List.mem_cons_self
  obtain ⟨reads, first⟩ := window_reads_back member (some "\n")
  exact ⟨member, reads, first rfl⟩

end GodotGraph.Token
