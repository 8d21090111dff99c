import GodotGraph.Proofs.Grammar.Load
import GodotGraph.Proofs.Grammar.WholeNames
import GodotGraph.Proofs.Pattern.Closing
import GodotGraph.Proofs.Token.Cut

/-!
Contract: cutting a window after its terminal changes no outcome.

Owns:
- grammars that are closed by a mark, with windows cut after the token of that mark;
- the closing mark of class and entity headers, of load calls and of external resources.

Does not own: grammars whose windows end with the line. A newline is an ordinary blank for a
pattern, so such a grammar does read on without the cut.

The mark is found in no token but its own. So the first one in the text of a window is the first
terminal, wherever that stands, and both texts agree up to it.
-/

set_option autoImplicit false

namespace GodotGraph

namespace Grammar

open Pattern (ClosedBy Mismatch Reader byteLength byteLength_append)
open Token (Window spaced)

/-! ## Texts up to a mark -/

/-- What comes after the first mark has no influence on the outcome. -/
theorem parse_of_closedBy {grammar : Grammar} {mark : Char}
    (closed : ClosedBy mark grammar.pattern.reader) {front back : List Char} (absent : mark ∉ front)
    {text : String} (shape : text.toList = front ++ mark :: back) :
    grammar.parse text = grammar.parse (String.ofList (front ++ [mark])) := by
  have longer : front ++ mark :: back = (front ++ [mark]) ++ back := by simp
  rw [parse_eq, parse_eq, shape, String.toList_ofList, closed front back absent]
  cases grammar.pattern.reader (front ++ [mark]) with
  | ok found =>
      simp only [Pattern.withTail, Pattern.Reading.append, longer, byteLength_append,
        Nat.add_sub_add_right]
  | error stuck =>
      simp only [Pattern.withTail, Pattern.Stuck.append, longer, byteLength_append,
        Nat.add_sub_add_right]

/-! ## Windows -/

/-- A grammar whose windows are cut after a mark, and whose pattern is closed by it. -/
structure Cut (grammar : Grammar) (mark : Char) : Prop where
  isMark : mark ∈ Token.Padding.godotMarks
  terminal : grammar.terminal = some (String.ofList [mark])
  closed : ClosedBy mark grammar.pattern.reader

section

variable {grammar : Grammar} {mark : Char} {text : String} {window : Window}

/-- The mark is found in no token of the window but its own. -/
def Alone (mark : Char) (window : Window) : Prop :=
  ∀ token ∈ window.anchor :: window.following, mark ∈ token.toList → token = String.ofList [mark]

theorem alone_of_source (isMark : mark ∈ Token.Padding.godotMarks)
    (inStream : window.anchor :: window.following <:+ Token.ofSource text) : Alone mark window :=
  fun token member => Token.eq_mark_of_mem isMark token (inStream.subset member)

/-- The cut window and the whole one are the same text, or they are the same text up to the first
mark. -/
theorem texts_of_alone (notSpace : mark ≠ ' ') (alone : Alone mark window) :
    window.text (some (String.ofList [mark])) = window.text none ∨
      ∃ front cut whole, mark ∉ front ∧
        (window.text (some (String.ofList [mark]))).toList = front ++ mark :: cut ∧
          (window.text none).toList = front ++ mark :: whole := by
  have wholeText : (window.text none).toList = window.anchor.toList ++ spaced window.following :=
    Token.toList_join_cons _ _
  have cutText : (window.text (some (String.ofList [mark]))).toList = window.anchor.toList ++
      spaced (Token.through (String.ofList [mark]) window.following) :=
    Token.toList_join_cons _ _
  by_cases atAnchor : mark ∈ window.anchor.toList
  · have isTerminal := alone window.anchor List.mem_cons_self atAnchor
    rw [isTerminal, String.toList_ofList] at wholeText cutText
    exact Or.inr ⟨[], _, _, by simp, cutText, wholeText⟩
  · by_cases closes : String.ofList [mark] ∈ window.following
    · obtain ⟨before, after, shape, notBefore⟩ := List.eq_append_cons_of_mem closes
      have absent : ∀ token ∈ before, mark ∉ token.toList := by
        intro token member inToken
        have inFollowing : token ∈ window.following := by
          rw [shape]
          exact List.mem_append_left _ member
        have same := alone token (List.mem_cons_of_mem _ inFollowing) inToken
        rw [same] at member
        exact notBefore member
      have absentFront : mark ∉ window.anchor.toList ++ (spaced before ++ [' ']) := by
        simp [atAnchor, Token.not_mem_spaced notSpace absent, notSpace]
      refine Or.inr ⟨window.anchor.toList ++ (spaced before ++ [' ']), [], spaced after,
        absentFront, ?_, ?_⟩
      · rw [cutText, shape, Token.through_append_cons notBefore, Token.spaced_append,
          Token.spaced_cons, String.toList_ofList]
        simp
      · rw [wholeText, shape, Token.spaced_append, Token.spaced_cons, String.toList_ofList]
        simp
    · apply Or.inl
      apply String.toList_injective
      rw [cutText, wholeText, Token.through_of_not_mem closes]

/-- Cutting a window after its terminal changes no outcome. -/
theorem Cut.parseWindow_eq (cut : Cut grammar mark) (alone : Alone mark window) :
    grammar.parseWindow window = grammar.parse (window.text none) := by
  have notSpace : mark ≠ ' ' := by
    rintro rfl
    exact absurd cut.isMark (by decide)
  rw [parseWindow, cut.terminal]
  rcases texts_of_alone notSpace alone with same | ⟨front, cutBack, back, absent, shapeCut, shape⟩
  · rw [same]
  · rw [parse_of_closedBy cut.closed absent shapeCut, parse_of_closedBy cut.closed absent shape]

end

/-! ## Closing marks -/

theorem cut_classHeader : Cut classHeader ':' where
  isMark := by decide
  terminal := rfl
  closed :=
    (Pattern.stopsBefore_reader (by decide) classHeader.pattern (by decide +kernel)).closedBy

theorem cut_entityHeader : Cut entityHeader ':' where
  isMark := by decide
  terminal := rfl
  closed :=
    (Pattern.stopsBefore_reader (by decide) entityHeader.pattern (by decide +kernel)).closedBy

/-- A sequence of patterns that stop before a mark, and the mark. -/
theorem closedBy_of_sequence {mark : Char} (solid : Text.isBlank mark = false) {grammar : Grammar}
    (parts : List Pattern) (stops : Pattern.allStopBefore mark parts = true) (label : String)
    (form : grammar.pattern.reader =
      Reader.sequence (Pattern.readers parts ++ [Reader.literal label [mark]])) :
    ClosedBy mark grammar.pattern.reader := by
  rw [form]
  exact Pattern.closedBy_sequence_concat solid (Pattern.stopsBefore_readers solid parts stops) label

theorem cut_loadReference : Cut loadReference ')' where
  isMark := by decide
  terminal := rfl
  closed := closedBy_of_sequence (by decide) [_, _, _, _, _, _, _] (by decide +kernel) _ rfl

theorem cut_externalResource : Cut externalResource ']' where
  isMark := by decide
  terminal := rfl
  closed := closedBy_of_sequence (by decide) [_, _, _] (by decide +kernel) _ rfl

/-- Whatever window of a source is given to one of these grammars, with or without the tokens
after its terminal, the outcome is the same: the captures and the end of the match, or the place
and the reason of the mismatch. -/
theorem parseWindow_eq_parse_whole {grammar : Grammar}
    (listed : grammar ∈ [classHeader, entityHeader, loadReference, externalResource])
    {text : String} {window : Window} (inStream : window ∈ Token.windows (Token.ofSource text)) :
    grammar.parseWindow window = grammar.parse (window.text none) := by
  have ends := Token.suffix_of_mem_windowsFrom inStream
  have cuts : ∀ mark, Cut grammar mark →
      grammar.parseWindow window = grammar.parse (window.text none) :=
    fun mark cut => cut.parseWindow_eq (alone_of_source cut.isMark ends)
  simp only [List.mem_cons, List.not_mem_nil, or_false] at listed
  rcases listed with rfl | rfl | rfl | rfl
  · exact cuts ':' cut_classHeader
  · exact cuts ':' cut_entityHeader
  · exact cuts ')' cut_loadReference
  · exact cuts ']' cut_externalResource

/-- A class and a call. A closing mark comes before the call is complete. -/
def classAndCall : String := "class A extends B: load(a) (\"res://b.gd\")"

/-- The window of the class. -/
def classWindow : Window :=
  ⟨0, "class", ["A", "extends", "B", ":", "load", "(", "a", ")", "(", "\"", "res", ":", "//b.gd",
    "\"", ")"]⟩

/-- The window of the call. -/
def callWindow : Window :=
  ⟨5, "load", ["(", "a", ")", "(", "\"", "res", ":", "//b.gd", "\"", ")"]⟩

theorem parseWindow_eq_parse_whole_classAndCall :
    (classHeader ∈ [classHeader, entityHeader, loadReference, externalResource] ∧
      classWindow ∈ Token.windows (Token.ofSource classAndCall) ∧
      classHeader.parseWindow classWindow = .ok ⟨[⟨"name", "A"⟩, ⟨"parent", "B"⟩], 18⟩ ∧
      classHeader.parse (classWindow.text none) = .ok ⟨[⟨"name", "A"⟩, ⟨"parent", "B"⟩], 18⟩) ∧
    (loadReference ∈ [classHeader, entityHeader, loadReference, externalResource] ∧
      callWindow ∈ Token.windows (Token.ofSource classAndCall) ∧
      loadReference.parseWindow callWindow = .error ⟨7, "'\"'"⟩ ∧
      loadReference.parse (callWindow.text none) = .error ⟨7, "'\"'"⟩) := by
  have classListed : classHeader ∈ [classHeader, entityHeader, loadReference, externalResource] :=
    List.mem_cons_self
  have callListed : loadReference ∈ [classHeader, entityHeader, loadReference, externalResource] := by
    simp
  have classInStream : classWindow ∈ Token.windows (Token.ofSource classAndCall) := by
    decide +kernel
  have callInStream : callWindow ∈ Token.windows (Token.ofSource classAndCall) := by
    decide +kernel
  have header : classHeader.parseWindow classWindow =
      .ok ⟨[⟨"name", "A"⟩, ⟨"parent", "B"⟩], 18⟩ := by
    decide +kernel
  have call : loadReference.parseWindow callWindow = .error ⟨7, "'\"'"⟩ := by
    decide +kernel
  exact ⟨⟨classListed, classInStream, header,
      (parseWindow_eq_parse_whole classListed classInStream).symm.trans header⟩,
    callListed, callInStream, call,
      (parseWindow_eq_parse_whole callListed callInStream).symm.trans call⟩

end Grammar

end GodotGraph
