import GodotGraph.Proofs.Text.Pieces
import GodotGraph.Scope.Splitter
import Mathlib.Data.List.Basic
import Mathlib.Data.List.TakeWhile

/-!
Contract: the regions that a splitter cuts a text into by indentation.

Owns:
- the tokens of the regions, without their places, and the region at one place;
- the named bodies of a text as the regions whose headers give a name;
- lines without a comment marker, and the width of a line.

Does not own: what the regions of one language mean.
-/

set_option autoImplicit false

namespace GodotGraph.Scope

/-! ## Lines -/

theorem cutLine_of_not_mem {mark : Char} {line : List Char} (absent : mark ∉ line) :
    cutLine [mark] line = line := by
  have whole : ∀ quoted, cutOutside [mark] quoted line = line := by
    induction line with
    | nil => intro quoted; rfl
    | cons c rest inductionHypothesis =>
        intro quoted
        obtain ⟨other, later⟩ : mark ≠ c ∧ mark ∉ rest := by simpa using absent
        have starts : [mark].isPrefixOf (c :: rest) = false := by
          rw [← Bool.not_eq_true, List.isPrefixOf_iff_prefix, List.cons_prefix_cons]
          exact fun both => other both.1
        unfold cutOutside
        rw [starts]
        split
        · rw [inductionHypothesis later]
        · simp [inductionHypothesis later]
  exact whole false

theorem cutLine_isPrefix (marker line : List Char) : cutLine marker line <+: line := by
  have whole : ∀ quoted, cutOutside marker quoted line <+: line := by
    induction line with
    | nil => exact fun quoted => List.prefix_refl _
    | cons c rest inductionHypothesis =>
        intro quoted
        rw [cutOutside]
        split
        · exact List.cons_prefix_cons.2 ⟨rfl, inductionHypothesis _⟩
        · split
          · exact List.nil_prefix
          · exact List.cons_prefix_cons.2 ⟨rfl, inductionHypothesis _⟩
  rw [cutLine]
  split
  · exact List.prefix_refl line
  · exact whole false

theorem newline_not_mem_bareLines {markers : CommentMarkers} {text line : List Char}
    (member : line ∈ markers.bareLines text) : '\n' ∉ line := by
  obtain ⟨whole, inLines, rfl⟩ := List.mem_map.1 member
  exact fun inLine => Text.newline_not_mem_lines inLines ((cutLine_isPrefix _ whole).subset inLine)

/-- Blanks in front of a text make up its indentation. -/
theorem indentation_append {blanks : List Char} (blank : ∀ c ∈ blanks, Text.isBlank c = true)
    {c : Char} (rest : List Char) (solid : Text.isBlank c = false) :
    indentation (blanks ++ c :: rest) = indentation blanks := by
  have stops : (c :: rest).takeWhile Text.isBlank = [] := by simp [solid]
  have front : blanks.takeWhile Text.isBlank = blanks := List.takeWhile_eq_self_iff.2 blank
  rw [indentation, indentation, List.takeWhile_append_of_pos blank, stops, List.append_nil, front]

namespace Splitter

variable (splitter : Splitter)

/-! ## Regions -/

/-- The tokens of the regions that start in some lines, in order. -/
def regions : List (List Char) → List (List String)
  | [] => []
  | line :: rest =>
      if splitter.startsAtLine line then
        Token.ofText splitter.padding
            (joinLines (line :: rest.takeWhile (continuesBody (indentation line))))
          :: regions rest
      else regions rest

theorem map_tokens_indentedFrom (index : Nat) (lines : List (List Char)) :
    (splitter.indentedFrom index lines).map (fun candidate => candidate.tokens) =
      splitter.regions lines := by
  induction lines generalizing index with
  | nil => rfl
  | cons line rest inductionHypothesis =>
      simp only [indentedFrom, regions]
      split
      · rw [List.map_cons, inductionHypothesis]
      · exact inductionHypothesis (index + 1)

/-- The tokens of the region that a line opens, given the lines after it. -/
def region (line : List Char) (rest : List (List Char)) : List String :=
  Token.ofText splitter.padding
    (joinLines (line :: rest.takeWhile (continuesBody (indentation line))))

theorem indentedFrom_cons_of_opens (index : Nat) {line : List Char} (rest : List (List Char))
    (opens : splitter.startsAtLine line = true) :
    splitter.indentedFrom index (line :: rest) =
      ⟨index, index + 1 + (rest.takeWhile (continuesBody (indentation line))).length,
        splitter.region line rest⟩ :: splitter.indentedFrom (index + 1) rest := by
  rw [indentedFrom, if_pos opens]
  rfl

/-- Every candidate is the region of a line that opens a declaration. -/
theorem exists_place_of_mem {index : Nat} {lines : List (List Char)} {candidate : Candidate}
    (member : candidate ∈ splitter.indentedFrom index lines) :
    ∃ place line rest, lines.drop place = line :: rest ∧ splitter.startsAtLine line = true ∧
      candidate = ⟨index + place, index + place + 1 +
        (rest.takeWhile (continuesBody (indentation line))).length, splitter.region line rest⟩ := by
  induction lines generalizing index with
  | nil => simp [indentedFrom] at member
  | cons line others inductionHypothesis =>
      have later : candidate ∈ splitter.indentedFrom (index + 1) others →
          ∃ place found rest, (line :: others).drop place = found :: rest ∧
            splitter.startsAtLine found = true ∧ candidate = ⟨index + place, index + place + 1 +
              (rest.takeWhile (continuesBody (indentation found))).length,
              splitter.region found rest⟩ := by
        intro inOthers
        obtain ⟨place, found, rest, split, opens, same⟩ := inductionHypothesis inOthers
        refine ⟨place + 1, found, rest, split, opens, ?_⟩
        rw [same, Nat.add_assoc index 1 place, Nat.add_comm 1 place]
      cases opens : splitter.startsAtLine line with
      | true =>
          rw [indentedFrom_cons_of_opens _ index others opens] at member
          rcases List.mem_cons.1 member with same | inOthers
          · exact ⟨0, line, others, rfl, opens, same⟩
          · exact later inOthers
      | false =>
          rw [indentedFrom, opens] at member
          exact later member

/-- Every region is opened by one of the lines. -/
theorem exists_line_of_mem_regions {lines : List (List Char)} {tokens : List String}
    (member : tokens ∈ splitter.regions lines) :
    ∃ place line rest, lines.drop place = line :: rest ∧ splitter.startsAtLine line = true ∧
      tokens = splitter.region line rest := by
  rw [← splitter.map_tokens_indentedFrom 0] at member
  obtain ⟨candidate, inLines, rfl⟩ := List.mem_map.1 member
  obtain ⟨place, line, rest, split, opens, rfl⟩ := splitter.exists_place_of_mem inLines
  refine ⟨place, line, rest, split, opens, ?_⟩
  dsimp only

theorem le_start_of_mem {index : Nat} {lines : List (List Char)} {candidate : Candidate}
    (member : candidate ∈ splitter.indentedFrom index lines) : index ≤ candidate.start := by
  obtain ⟨place, line, rest, -, -, rfl⟩ := splitter.exists_place_of_mem member
  exact Nat.le_add_right index place

/-- The candidates of the lines from a place on are those that start there or later. -/
theorem filter_indentedFrom (index place : Nat) (lines : List (List Char)) :
    (splitter.indentedFrom index lines).filter (fun candidate =>
        decide (index + place ≤ candidate.start)) =
      splitter.indentedFrom (index + place) (lines.drop place) := by
  induction lines generalizing index place with
  | nil =>
      rw [List.drop_nil]
      rfl
  | cons line rest inductionHypothesis =>
      cases place with
      | zero =>
          refine List.filter_eq_self.2 fun candidate member => ?_
          simpa using splitter.le_start_of_mem member
      | succ before =>
          have shifted : index + (before + 1) = index + 1 + before := by omega
          rw [List.drop_succ_cons, shifted, ← inductionHypothesis (index + 1) before, indentedFrom]
          split
          · refine List.filter_cons_of_neg ?_
            have earlier : ¬ index + 1 + before ≤ index := by omega
            simpa using earlier
          · rfl

/-- A line that opens a declaration has the only candidate that starts there. -/
theorem exists_candidate_iff {index place : Nat} {lines : List (List Char)} {line : List Char}
    {rest : List (List Char)} (found : lines.drop place = line :: rest)
    (opens : splitter.startsAtLine line = true) (wanted : List String → Prop) :
    (∃ candidate ∈ splitter.indentedFrom index lines,
        candidate.start = index + place ∧ wanted candidate.tokens) ↔
      wanted (splitter.region line rest) := by
  induction lines generalizing index place with
  | nil => simp at found
  | cons head others inductionHypothesis =>
      cases place with
      | zero =>
          obtain ⟨rfl, rfl⟩ : head = line ∧ others = rest := by simpa using found
          rw [splitter.indentedFrom_cons_of_opens index others opens]
          constructor
          · rintro ⟨candidate, member, start, holds⟩
            rcases List.mem_cons.1 member with rfl | later
            · dsimp only at holds
              exact holds
            · have after := splitter.le_start_of_mem later
              omega
          · intro holds
            refine ⟨_, List.mem_cons_self, rfl, ?_⟩
            dsimp only
            exact holds
      | succ below =>
          have inOthers := @inductionHypothesis (index + 1) below found
          rw [← inOthers, indentedFrom]
          have shift : index + 1 + below = index + (below + 1) := by omega
          rw [shift]
          split
          · refine ⟨?_, fun ⟨candidate, member, both⟩ =>
              ⟨candidate, List.mem_cons_of_mem _ member, both⟩⟩
            rintro ⟨candidate, member, start, holds⟩
            rcases List.mem_cons.1 member with rfl | later
            · simp at start
            · exact ⟨candidate, later, start, holds⟩
          · exact Iff.rfl

/-- The body that a region makes, if its header gives a name. -/
def body? (tokens : List String) : Option Body :=
  (splitter.headerName tokens).map fun name => ⟨name, tokens⟩

/-- Which regions have a name does not depend on what they cover. -/
theorem bodies_collect (covered : Nat) (candidates : List Candidate) :
    (splitter.collect covered candidates).bodies =
      (candidates.map fun candidate => candidate.tokens).filterMap splitter.body? := by
  induction candidates generalizing covered with
  | nil => rfl
  | cons candidate others inductionHypothesis =>
      rw [List.map_cons, List.filterMap_cons, body?]
      unfold collect
      cases splitter.headerName candidate.tokens with
      | some name =>
          dsimp only [Option.map_some]
          rw [inductionHypothesis]
      | none =>
          dsimp only [Option.map_none]
          split
          · exact inductionHypothesis covered
          · exact inductionHypothesis covered

theorem bodies_split (indented : splitter.mode = .indentation) (text : String) :
    (splitter.split text).bodies =
      (splitter.regions (splitter.comments.bareLines text.toList)).filterMap splitter.body? := by
  rw [split, bodies_collect, candidates, indented]
  exact congrArg (List.filterMap splitter.body?) (splitter.map_tokens_indentedFrom 0 _)

end Splitter

end GodotGraph.Scope
