import GodotGraph.Grammar.Header
import GodotGraph.Proofs.Scope.Place
import GodotGraph.Proofs.Token.Cut
import Mathlib.Data.List.Infix

/-!
Contract: how the scopes that indentation makes lie in their text.

Owns:
- which lines of a text open a declaration;
- the region of a line as a part of the lines and of the tokens of the text;
- the split of a text as what these regions give.

Does not own: the header grammar. Whether a region has a name is left to it.

Regions are found one by one and never compared. They are laminar because a line that ends the
outer one is indented no deeper than its header, while the inner header is indented deeper.
-/

set_option autoImplicit false

namespace GodotGraph.Scope

open Token (ofGodot ofLines closedLines)

namespace Splitter

variable (splitter : Splitter)

/-! ## Lines that open a declaration -/

/-- The first token of the line with this index is an anchor. -/
def opensAt (lines : List (List Char)) (index : Nat) : Bool :=
  (lines[index]?.bind fun line => (ofGodot line).head?).any splitter.isAnchor

theorem startsAtLine_eq_any_head? (padded : splitter.padding = Token.Padding.godot)
    {line : List Char} (inLine : '\n' ∉ line) :
    splitter.startsAtLine line = (ofGodot line).head?.any splitter.isAnchor := by
  rw [startsAtLine, padded]
  cases found : Text.firstWord line with
  | none =>
      rw [Token.ofGodot_eq_nil_of_firstWord inLine found]
      rfl
  | some word =>
      obtain ⟨token, others, tokens⟩ :=
        List.exists_cons_of_ne_nil (Token.ofGodot_ne_nil_of_firstWord found)
      obtain ⟨rest, whole⟩ := Token.ofGodot_firstWord_prefix inLine found
      have padding : Token.ofPadded (Token.Padding.godot.pad word) = token :: others := tokens
      dsimp only
      rw [padding, ← whole, tokens]
      rfl

/-- There is one candidate for each line whose first token is an anchor, in line order. -/
theorem map_start_indentedFrom (padded : splitter.padding = Token.Padding.godot) (index : Nat)
    {lines : List (List Char)} (inLines : ∀ line ∈ lines, '\n' ∉ line) :
    (splitter.indentedFrom index lines).map (fun candidate => candidate.start) =
      ((List.range lines.length).filter (splitter.opensAt lines)).map (index + ·) := by
  induction lines generalizing index with
  | nil => rfl
  | cons line others inductionHypothesis =>
      have later := inductionHypothesis (index + 1) fun line member =>
        inLines line (List.mem_cons_of_mem _ member)
      have opens : splitter.opensAt (line :: others) 0 = splitter.startsAtLine line :=
        (splitter.startsAtLine_eq_any_head? padded (inLines line List.mem_cons_self)).symm
      have below : (fun place => splitter.opensAt (line :: others) (place + 1)) =
        splitter.opensAt others := rfl
      rw [List.length_cons, filter_range_succ, opens, below, indentedFrom]
      split
      · rw [List.map_cons, later, List.map_append, map_add_succ]
        rfl
      · rw [later, List.nil_append, map_add_succ]

end Splitter

/-! ## The region of a line -/

/-- The tokens of some lines of a text: from a place up to another one. -/
def tokensBetween (lines : List (List Char)) (start stop : Nat) : List String :=
  ofGodot (['\n'].intercalate ((lines.drop start).take (stop - start)))

theorem tokensBetween_of_drop {lines : List (List Char)} {start stop : Nat} {line : List Char}
    {rest : List (List Char)} (place : lines.drop start = line :: rest) (before : start < stop) :
    tokensBetween lines start stop = ofGodot line ++ ofLines (rest.take (stop - (start + 1))) := by
  obtain ⟨size, same⟩ : ∃ size, stop - start = size + 1 := ⟨stop - (start + 1), by omega⟩
  have less : stop - (start + 1) = size := by omega
  rw [tokensBetween, place, same, less, List.take_succ_cons, Token.ofGodot_intercalate]

/-- The candidate is the region of its header: it has the lines up to the next one that has text
and is indented no deeper, and its tokens are those of the whole text without the tokens of the
lines above and without the lines below, each with the line end in front of it. -/
structure RegionOf (lines : List (List Char)) (header : List Char) (candidate : Candidate) :
    Prop where
  opened : lines[candidate.start]? = some header
  filled : Text.allBlank header = false
  nonempty : candidate.start < candidate.stop
  bounded : candidate.stop ≤ lines.length
  deeper : ∀ place line, candidate.start < place → place < candidate.stop →
    lines[place]? = some line →
      Text.allBlank line = true ∨ indentation header < indentation line
  ends : ∀ line, lines[candidate.stop]? = some line →
    Text.allBlank line = false ∧ indentation line ≤ indentation header
  slice : ofGodot (['\n'].intercalate lines) =
    closedLines (lines.take candidate.start) ++
      (candidate.tokens ++ ofLines (lines.drop candidate.stop))

theorem tokensBetween_isPrefix {lines : List (List Char)} {start stop last : Nat}
    (before : start < stop) (upTo : stop ≤ last) (inLines : start < lines.length) :
    tokensBetween lines start stop <+: tokensBetween lines start last := by
  have place := List.drop_eq_getElem_cons inLines
  have shorter : (lines.drop (start + 1)).take (stop - (start + 1)) <+:
      (lines.drop (start + 1)).take (last - (start + 1)) :=
    List.take_isPrefix_take.2 (Or.inl (by omega))
  obtain ⟨more, same⟩ := shorter
  rw [tokensBetween_of_drop place before,
    tokensBetween_of_drop place (Nat.lt_of_lt_of_le before upTo), ← same, Token.ofLines_append,
    ← List.append_assoc]
  exact List.prefix_append _ _

theorem RegionOf.tokens_eq {lines : List (List Char)} {header : List Char} {candidate : Candidate}
    (region : RegionOf lines header candidate) :
    candidate.tokens = tokensBetween lines candidate.start candidate.stop := by
  have nonempty := region.nonempty
  have inLines : candidate.start < lines.length := Nat.lt_of_lt_of_le nonempty region.bounded
  have place := List.drop_eq_getElem_cons inLines
  have below : (lines.drop (candidate.start + 1)).drop (candidate.stop - (candidate.start + 1)) =
      lines.drop candidate.stop := by
    rw [List.drop_drop]
    congr 1
    omega
  have whole : ofGodot (['\n'].intercalate lines) = closedLines (lines.take candidate.start) ++
      (tokensBetween lines candidate.start candidate.stop ++
        ofLines (lines.drop candidate.stop)) := by
    conv_lhs => rw [← List.take_append_drop candidate.start lines, place,
      Token.ofGodot_intercalate_middle,
      ← List.take_append_drop (candidate.stop - (candidate.start + 1))
        (lines.drop (candidate.start + 1)),
      Token.ofLines_append, below, ← List.append_assoc (ofGodot _),
      ← tokensBetween_of_drop place nonempty]
  rw [region.slice] at whole
  exact List.append_cancel_right (List.append_cancel_left whole)

/-- The later of two regions does not reach over the end of the earlier one: the line that ends
the earlier one would be too shallow for it. -/
theorem RegionOf.laminar {lines : List (List Char)} {firstHeader secondHeader : List Char}
    {first second : Candidate} (outer : RegionOf lines firstHeader first)
    (inner : RegionOf lines secondHeader second) (order : first.start < second.start) :
    first.Laminar second := by
  refine Candidate.laminar_of_inside order fun inside => ?_
  by_contra beyond
  have crossed : first.stop < second.stop := Nat.not_le.1 beyond
  have here := List.getElem?_eq_getElem (Nat.lt_of_lt_of_le crossed inner.bounded)
  obtain ⟨filled, shallow⟩ := outer.ends _ here
  have innerDeeper := inner.deeper first.stop _ inside crossed here
  have outerDeeper := outer.deeper second.start secondHeader order inside inner.opened
  rw [filled] at innerDeeper
  rw [inner.filled] at outerDeeper
  have innerAbove := innerDeeper.resolve_left Bool.false_ne_true
  have outerAbove := outerDeeper.resolve_left Bool.false_ne_true
  omega

namespace Splitter

variable (splitter : Splitter)

theorem not_allBlank_of_startsAtLine {line : List Char}
    (opens : splitter.startsAtLine line = true) : Text.allBlank line = false := by
  by_contra blank
  have none : Text.firstWord line = none := by
    have all : ∀ c ∈ line, Text.isBlank c = true := by simpa [Text.allBlank] using blank
    have empty : Text.trimStart line = [] := List.dropWhile_eq_nil_iff.2 all
    rw [Text.firstWord, empty]
  rw [startsAtLine, none] at opens
  cases opens

theorem regionOf_of_mem (padded : splitter.padding = Token.Padding.godot)
    {lines : List (List Char)} {candidate : Candidate}
    (member : candidate ∈ splitter.indentedFrom 0 lines) :
    ∃ header, RegionOf lines header candidate := by
  obtain ⟨place, header, rest, found, opens, rfl⟩ := splitter.exists_place_of_mem member
  have split :=
    List.takeWhile_append_dropWhile (p := continuesBody (indentation header)) (l := rest)
  have continues : ∀ line ∈ rest.takeWhile (continuesBody (indentation header)),
      Text.allBlank line = true ∨ indentation header < indentation line := by
    intro line inBody
    simpa [continuesBody] using List.all_eq_true.1 List.all_takeWhile line inBody
  have stops := List.head?_dropWhile_not (continuesBody (indentation header)) rest
  rw [region, Nat.zero_add, padded, Token.ofText_godot, joinLines, String.toList_ofList,
    Token.ofGodot_intercalate]
  generalize rest.takeWhile (continuesBody (indentation header)) = body at *
  generalize rest.dropWhile (continuesBody (indentation header)) = later at *
  have below : lines.drop (place + 1) = body ++ later := by
    rw [← List.drop_drop, found, split]
    rfl
  have lineBelow : ∀ offset, lines[place + 1 + offset]? = (body ++ later)[offset]? := by
    intro offset
    rw [← below, List.getElem?_drop]
  have afterBody : lines.drop (place + 1 + body.length) = later := by
    rw [← List.drop_drop, below, List.drop_left]
  have size : place + 1 + body.length + later.length = lines.length := by
    have atPlace := congrArg List.length found
    have back := congrArg List.length below
    rw [List.length_drop, List.length_cons] at atPlace
    rw [List.length_drop, List.length_append] at back
    omega
  refine ⟨header, ?_, splitter.not_allBlank_of_startsAtLine opens, ?_, ?_, ?_, ?_, ?_⟩
  · show lines[place]? = some header
    rw [← List.head?_drop, found, List.head?_cons]
  · show place < place + 1 + body.length
    omega
  · show place + 1 + body.length ≤ lines.length
    omega
  · intro position line after before here
    dsimp only at after before
    obtain ⟨offset, rfl⟩ : ∃ offset, position = place + 1 + offset :=
      ⟨position - place - 1, by omega⟩
    rw [lineBelow, List.getElem?_append_left (by omega)] at here
    exact continues line (List.mem_of_getElem? here)
  · intro line here
    dsimp only at here
    rw [← List.head?_drop, afterBody] at here
    rw [here] at stops
    simpa [continuesBody] using stops
  · show ofGodot (['\n'].intercalate lines) = closedLines (lines.take place) ++
      (ofGodot header ++ ofLines body ++ ofLines (lines.drop (place + 1 + body.length)))
    conv_lhs => rw [← List.take_append_drop place lines, found, ← split,
      Token.ofGodot_intercalate_middle, Token.ofLines_append]
    rw [afterBody, List.append_assoc]

/-! ## The split of a text -/

/-- What indentation gives for a text: candidates that are the regions of the lines whose first
token is an anchor, in line order and laminar, those with a name as bodies and the others as
rejected unless one with a name covers the line. -/
structure IndentedSplit (lines : List (List Char)) (candidates : List Candidate) (result : Split) :
    Prop where
  starts : candidates.map (fun candidate => candidate.start) =
    (List.range lines.length).filter (splitter.opensAt lines)
  regions : ∀ candidate ∈ candidates, ∃ header, RegionOf lines header candidate
  laminar : candidates.Pairwise Candidate.Laminar
  collected : splitter.Collects candidates result

theorem candidates_indented (indented : splitter.mode = .indentation) (text : String) :
    splitter.candidates text =
      splitter.indentedFrom 0 (splitter.comments.bareLines text.toList) := by
  rw [candidates, indented]

theorem starts_indented (indented : splitter.mode = .indentation)
    (padded : splitter.padding = Token.Padding.godot) (text : String) :
    (splitter.candidates text).map (fun candidate => candidate.start) =
      (List.range (splitter.comments.bareLines text.toList).length).filter
        (splitter.opensAt (splitter.comments.bareLines text.toList)) := by
  have inLines : ∀ line ∈ splitter.comments.bareLines text.toList, '\n' ∉ line :=
    fun line member => newline_not_mem_bareLines member
  have starts := splitter.map_start_indentedFrom padded 0 inLines
  rw [← splitter.candidates_indented indented] at starts
  simpa only [Nat.zero_add, List.map_id'] using starts

/-- Indentation splits every text into the regions of its anchor lines. -/
theorem split_indented (indented : splitter.mode = .indentation)
    (padded : splitter.padding = Token.Padding.godot) (text : String) :
    splitter.IndentedSplit (splitter.comments.bareLines text.toList) (splitter.candidates text)
      (splitter.split text) := by
  have starts := splitter.starts_indented indented padded text
  have ascending := ascending_of_starts starts
  have regions : ∀ candidate ∈ splitter.candidates text,
      ∃ header, RegionOf (splitter.comments.bareLines text.toList) header candidate := by
    rw [splitter.candidates_indented indented]
    exact fun candidate member => splitter.regionOf_of_mem padded member
  refine ⟨starts, regions, ?_, splitter.collects_collect ascending⟩
  refine ascending.imp_of_mem fun firstMember secondMember order => ?_
  obtain ⟨firstHeader, outer⟩ := regions _ firstMember
  obtain ⟨secondHeader, inner⟩ := regions _ secondMember
  exact outer.laminar inner order

/-- A class with two classes in it, one without a name, and a class without a name around one
that has a name. -/
theorem split_indented_classes :
    let splitter : Splitter :=
      ⟨["class"], Grammar.entityHeader, .lineOnly "#", .indentation, .godot⟩
    let text := "class A:\n\tclass B:\n\n# note\n\tclass (:\n\t\tpass\nclass :\n    class C:\n"
    splitter.mode = .indentation ∧ splitter.padding = .godot ∧
      splitter.candidates text = [
        ⟨0, 6, ["class", "A", ":", "\n", "class", "B", ":", "\n", "\n", "\n",
          "class", "(", ":", "\n", "pass"]⟩,
        ⟨1, 4, ["class", "B", ":", "\n", "\n"]⟩,
        ⟨4, 6, ["class", "(", ":", "\n", "pass"]⟩,
        ⟨6, 8, ["class", ":", "\n", "class", "C", ":"]⟩,
        ⟨7, 8, ["class", "C", ":"]⟩] ∧
      (splitter.split text).bodies.map (fun body => body.name) = ["A", "B", "C"] ∧
      (splitter.split text).rejected = [["class", ":", "\n", "class", "C", ":"]] ∧
      splitter.IndentedSplit (splitter.comments.bareLines text.toList) (splitter.candidates text)
        (splitter.split text) := by
  intro splitter text
  exact ⟨rfl, rfl, by decide +kernel, by decide +kernel, by decide +kernel,
    split_indented splitter rfl rfl text⟩

end Splitter

end GodotGraph.Scope
