import GodotGraph.Grammar.Resource
import GodotGraph.Proofs.Grammar.Declaration
import GodotGraph.Proofs.Pattern.Consumption

/-!
Contract: load calls as the grammar of references sees them.

Owns:
- the part of a text that a load call takes up, which ends with a closing mark and
  holds no comment mark;
- load windows with a comment before the closing mark, which are never matched.
-/

set_option autoImplicit false

namespace GodotGraph

namespace Token

/-- A mark is in a spaced text only as a part of a token. -/
theorem not_mem_spaced {mark : Char} (notSpace : mark ≠ ' ') {tokens : List String}
    (absent : ∀ token ∈ tokens, mark ∉ token.toList) : mark ∉ spaced tokens := by
  intro inside
  obtain ⟨token, member, inWord⟩ := List.mem_flatMap.1 inside
  rcases List.mem_cons.1 inWord with isSpace | inToken
  · exact notSpace isSpace
  · exact absent token member inToken

end Token

namespace Grammar

open Pattern (Reader Reading)
open Token (spaced)

/-- The mark that opens a comment. -/
def commentMark : Char := '#'

/-- The mark that closes a load call. -/
def closeMark : Char := ')'

/-- The token that closes a load call. -/
def closeToken : String := ")"

/-- Of two marks only one can come first. -/
theorem first_mark_unique {first second : Char} (different : first ≠ second)
    {before after front back : List Char}
    (same : before ++ first :: after = front ++ second :: back) (absent : second ∉ before) :
    first ∈ front := by
  rcases List.append_eq_append_iff.1 same with ⟨middle, split, tail⟩ | ⟨middle, split, tail⟩
  · cases middle with
    | nil => exact absurd (List.cons.inj tail).1 different
    | cons c others =>
        have head : first = c := (List.cons.inj tail).1
        rw [split, head]
        simp
  · cases middle with
    | nil => exact absurd (List.cons.inj tail).1.symm different
    | cons c others =>
        have head : second = c := (List.cons.inj tail).1
        exact absurd (by rw [split, head]; simp) absent

/-- A load call ends with the closing mark, and no comment mark stands in it. -/
theorem loadReference_reads {text : List Char} {found : Reading}
    (read : loadReference.pattern.reader text = .ok found) :
    ∃ call rest, text = call ++ closeMark :: rest ∧ commentMark ∉ call := by
  have solid : Text.isBlank commentMark = false := by decide
  -- Every part but the last keeps clear of the comment mark.
  have shape : ∃ front label, loadReference.pattern.reader =
        Reader.sequence (Pattern.readers front ++ [Reader.literal label [closeMark]]) ∧
      Pattern.anyMayRead commentMark front = false := by
    refine ⟨[_, _, _, _, _, _, _], _, rfl, ?_⟩
    decide +kernel
  obtain ⟨front, label, form, absent⟩ := shape
  rw [form] at read
  obtain ⟨middle, ending, readFront, readClose, _⟩ := Pattern.sequence_concat_ok read
  have free := Pattern.avoids_sequence (Pattern.avoids_readers solid front absent) text middle
    readFront
  have blanks := free.trans (Pattern.FreeUpTo.trimStart solid middle.rest)
  simp only [Reader.literal] at readClose
  split at readClose
  · next starts =>
      obtain ⟨rest, after⟩ := List.isPrefixOf_iff_prefix.1 starts
      obtain ⟨call, split, absentCall⟩ := blanks
      refine ⟨call, rest, ?_, absentCall⟩
      rw [split, ← after]
      rfl
  · exact absurd readClose (by simp)

/-- The token holds a comment mark, and no closing mark before it. -/
def IsCommented (token : String) : Prop :=
  ∃ before after, token.toList = before ++ commentMark :: after ∧ closeMark ∉ before

/-- No load call goes over a comment. -/
theorem loadReference_parseWindow_commented (index : Nat) {anchor : String} {front : List String}
    {token : String} (openAnchor : closeMark ∉ anchor.toList)
    (openFront : ∀ word ∈ front, closeMark ∉ word.toList) (commented : IsCommented token)
    (rest : List String) :
    ∃ mismatch, loadReference.parseWindow ⟨index, anchor, front ++ token :: rest⟩ =
      .error mismatch := by
  obtain ⟨before, after, shape, openBefore⟩ := commented
  have notClose : closeToken ∉ front := by
    intro member
    exact openFront closeToken member (by decide)
  have other : token ≠ closeToken := by
    rintro rfl
    have inToken : commentMark ∈ closeToken.toList := by rw [shape]; simp
    exact absurd inToken (by decide)
  have following : Token.within loadReference.terminal (front ++ token :: rest) =
      front ++ token :: Token.through closeToken rest := by
    show Token.through closeToken (front ++ token :: rest) = _
    rw [Token.through_append_of_not_mem notClose, Token.through, if_neg other]
  cases run : loadReference.parseWindow ⟨index, anchor, front ++ token :: rest⟩ with
  | error mismatch => exact ⟨mismatch, rfl⟩
  | ok found =>
      obtain ⟨last, read⟩ := reader_of_parse_ok run
      obtain ⟨call, left, split, absent⟩ := loadReference_reads read
      -- A call holds no comment mark, but the first closing mark comes after one.
      have window : (Token.Window.text ⟨index, anchor, front ++ token :: rest⟩
          loadReference.terminal).toList =
          (anchor.toList ++ (spaced front ++ ' ' :: before)) ++ commentMark ::
            (after ++ spaced (Token.through closeToken rest)) := by
        rw [Token.Window.text, following, Token.toList_join_cons, Token.spaced_append,
          Token.spaced_cons, shape]
        simp
      have openText : closeMark ∉ anchor.toList ++ (spaced front ++ ' ' :: before) := by
        have notSpace : closeMark ≠ ' ' := by decide
        have openSpaced := Token.not_mem_spaced notSpace openFront
        simp [openAnchor, openSpaced, notSpace, openBefore]
      rw [window] at split
      exact absurd (first_mark_unique (by decide) split openText) absent

end Grammar

end GodotGraph
