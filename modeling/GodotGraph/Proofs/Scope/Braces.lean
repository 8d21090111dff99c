import GodotGraph.Grammar.Header
import GodotGraph.Proofs.Scope.Place
import Mathlib.Data.List.Infix

/-!
Contract: how the scopes that braces make lie in their stream.

Owns:
- the level of a stream, and streams whose braces balance;
- the place where the brace counter stops, in any stream;
- the region of an anchor as a part of the stream;
- which regions of a balanced stream are balanced.

Does not own: the header grammar. Whether a region has a name is left to it.

The opening brace of a region is the first one after the anchor, whatever lies between. If a
brace closes in between, then the opening brace belongs to a later block, and the region reaches
out of the block of its anchor. All other regions are balanced and lie inside one another.
-/

set_option autoImplicit false

namespace GodotGraph.Scope

/-! ## Levels -/

/-- What a token adds to the level. -/
def braceWeight (token : String) : Int :=
  if token = openBrace then 1 else if token = closeBrace then -1 else 0

/-- The braces that the tokens open and do not close. -/
def braceLevel : List String → Int
  | [] => 0
  | token :: rest => braceWeight token + braceLevel rest

@[simp] theorem braceLevel_nil : braceLevel [] = 0 := rfl

theorem braceLevel_cons (token : String) (rest : List String) :
    braceLevel (token :: rest) = braceWeight token + braceLevel rest := rfl

theorem braceLevel_append (first rest : List String) :
    braceLevel (first ++ rest) = braceLevel first + braceLevel rest := by
  induction first with
  | nil => simp
  | cons token others inductionHypothesis =>
      rw [List.cons_append, braceLevel_cons, braceLevel_cons, inductionHypothesis]
      omega

theorem braceLevel_eq_counts (tokens : List String) :
    braceLevel tokens = (tokens.count openBrace : Int) - tokens.count closeBrace := by
  have apart : openBrace ≠ closeBrace := by decide
  induction tokens with
  | nil => rfl
  | cons token rest inductionHypothesis =>
      rw [braceLevel_cons, inductionHypothesis, braceWeight]
      by_cases opens : token = openBrace
      · subst opens
        rw [if_pos rfl, List.count_cons_self, List.count_cons_of_ne apart]
        omega
      · rw [if_neg opens, List.count_cons_of_ne opens]
        by_cases closes : token = closeBrace
        · subst closes
          rw [if_pos rfl, List.count_cons_self]
          omega
        · rw [if_neg closes, List.count_cons_of_ne closes]
          omega

/-- No front of the tokens closes more braces than it opens, and the totals are equal. -/
structure Balanced (tokens : List String) : Prop where
  fronts : ∀ front, front <+: tokens → front.count closeBrace ≤ front.count openBrace
  totals : tokens.count openBrace = tokens.count closeBrace

instance (tokens : List String) : Decidable (Balanced tokens) :=
  decidable_of_iff
    ((∀ front ∈ tokens.inits, front.count closeBrace ≤ front.count openBrace) ∧
      tokens.count openBrace = tokens.count closeBrace)
    ⟨fun ⟨fronts, totals⟩ =>
        ⟨fun front starts => fronts front ((List.mem_inits _ _).2 starts), totals⟩,
      fun balanced => ⟨fun front member => balanced.fronts front ((List.mem_inits _ _).1 member),
        balanced.totals⟩⟩

theorem balanced_iff_levels {tokens : List String} :
    Balanced tokens ↔ (∀ count, 0 ≤ braceLevel (tokens.take count)) ∧ braceLevel tokens = 0 := by
  simp only [braceLevel_eq_counts]
  constructor
  · intro balanced
    refine ⟨fun count => ?_, by have same := balanced.totals; omega⟩
    have front := balanced.fronts _ (List.take_prefix count tokens)
    omega
  · rintro ⟨levels, total⟩
    refine ⟨fun front starts => ?_, by omega⟩
    have level := levels front.length
    rw [← List.prefix_iff_eq_take.1 starts] at level
    omega

/-- The first brace of the tokens, if there is one, does not close. -/
def OpensFirst (tokens : List String) : Prop :=
  closeBrace ∉ tokens.takeWhile (· ≠ openBrace)

instance (tokens : List String) : Decidable (OpensFirst tokens) :=
  inferInstanceAs (Decidable (_ ∉ _))

theorem Balanced.opensFirst {tokens : List String} (balanced : Balanced tokens) :
    OpensFirst tokens := by
  intro closes
  have front := balanced.fronts _ (List.takeWhile_prefix (· ≠ openBrace))
  have unopened : openBrace ∉ tokens.takeWhile (· ≠ openBrace) := by
    intro member
    simpa using List.all_eq_true.1 List.all_takeWhile openBrace member
  rw [List.count_eq_zero.2 unopened] at front
  have some := List.count_pos_iff.2 closes
  omega

/-! ## The brace counter -/

/-- From a depth above zero the counter takes so many tokens: the depth is above zero before each
of them, and it is zero after the last one unless the tokens end. -/
structure Closes (depth : Nat) (tokens : List String) (count : Nat) : Prop where
  bounded : count ≤ tokens.length
  inside : ∀ taken < count, 0 < (depth : Int) + braceLevel (tokens.take taken)
  closed : (depth : Int) + braceLevel (tokens.take count) = 0 ∨
    count = tokens.length ∧ 0 < (depth : Int) + braceLevel (tokens.take count)

theorem Closes.cons {depth after count : Nat} {token : String} {rest : List String}
    (positive : 0 < depth) (step : (after : Int) = depth + braceWeight token)
    (closes : Closes after rest count) : Closes depth (token :: rest) (count + 1) := by
  have shifted : ∀ taken, (depth : Int) + braceLevel ((token :: rest).take (taken + 1)) =
      after + braceLevel (rest.take taken) := by
    intro taken
    rw [List.take_succ_cons, braceLevel_cons, step]
    omega
  refine ⟨Nat.succ_le_succ closes.bounded, fun taken less => ?_, ?_⟩
  · cases taken with
    | zero => simpa using positive
    | succ before =>
        rw [shifted]
        exact closes.inside before (Nat.lt_of_succ_lt_succ less)
  · rw [shifted, List.length_cons, Nat.succ_inj]
    exact closes.closed

/-- Above depth zero the counter never gives up: it stops at the brace that brings the depth back
to zero, or at the end. -/
theorem exists_blockLength {depth : Nat} (positive : 0 < depth) (tokens : List String) :
    ∃ count, blockLength depth tokens = some count ∧ Closes depth tokens count := by
  induction tokens generalizing depth with
  | nil => exact ⟨0, rfl, Nat.le_refl 0, by omega, Or.inr ⟨rfl, by simpa using positive⟩⟩
  | cons token rest inductionHypothesis =>
      by_cases opens : token = openBrace
      · obtain ⟨count, counted, closes⟩ := inductionHypothesis (Nat.succ_pos depth)
        refine ⟨count + 1, ?_, closes.cons positive (by simp [braceWeight, opens])⟩
        rw [blockLength.eq_def]
        simp only [if_pos opens, counted, Option.map_some]
      · by_cases shuts : token = closeBrace
        · have weight : braceWeight token = -1 := by rw [braceWeight, if_neg opens, if_pos shuts]
          -- Only at depth one does the counter stop inside the tokens.
          match depth, positive with
          | 1, _ =>
              refine ⟨1, ?_, Nat.succ_le_succ (Nat.zero_le _), ?_, Or.inl ?_⟩
              · rw [blockLength, if_neg opens, if_pos shuts]
              · intro taken less
                obtain rfl : taken = 0 := by omega
                simp
              · simp [braceLevel_cons, weight]
          | outer + 2, positive =>
              obtain ⟨count, counted, closes⟩ := inductionHypothesis (Nat.succ_pos outer)
              refine ⟨count + 1, ?_, closes.cons positive (by rw [weight]; omega)⟩
              rw [blockLength, if_neg opens, if_pos shuts, counted, Option.map_some]
        · obtain ⟨count, counted, closes⟩ := inductionHypothesis positive
          refine ⟨count + 1, ?_, closes.cons positive (by simp [braceWeight, opens, shuts])⟩
          rw [blockLength.eq_def]
          simp only [if_neg opens, if_neg shuts, counted, Option.map_some]

theorem regionLength_of_mem {tokens : List String} (member : openBrace ∈ tokens) :
    ∃ lead body count, tokens = lead ++ openBrace :: body ∧ openBrace ∉ lead ∧
      regionLength tokens = some (lead.length + 1 + count) ∧ Closes 1 body count := by
  obtain ⟨lead, body, shape, unopened⟩ := List.eq_append_cons_of_mem member
  obtain ⟨count, counted, closes⟩ := exists_blockLength Nat.one_pos body
  have before : beforeBrace (lead ++ openBrace :: body) = some lead.length := by
    clear shape
    induction lead with
    | nil => rfl
    | cons token rest inductionHypothesis =>
        obtain ⟨other, later⟩ : openBrace ≠ token ∧ openBrace ∉ rest := by simpa using unopened
        rw [List.cons_append, beforeBrace, if_neg (Ne.symm other), inductionHypothesis later]
        rfl
  refine ⟨lead, body, count, shape, unopened, ?_, closes⟩
  rw [regionLength, shape, before]
  simp only [List.drop_left, blockLength, if_true, counted, Option.map_some]
  congr 1
  omega

theorem regionLength_of_not_mem {tokens : List String} (absent : openBrace ∉ tokens) :
    regionLength tokens = none := by
  have before : beforeBrace tokens = none := by
    induction tokens with
    | nil => rfl
    | cons token rest inductionHypothesis =>
        obtain ⟨other, later⟩ : openBrace ≠ token ∧ openBrace ∉ rest := by simpa using absent
        rw [beforeBrace, if_neg (Ne.symm other), inductionHypothesis later]
        rfl
  rw [regionLength, before]

/-! ## The region of an anchor -/

/-- The level of the stream in front of the token at a place. -/
def levelAt (stream : List String) (place : Nat) : Int :=
  braceLevel (stream.take place)

theorem levelAt_add (stream : List String) (place count : Nat) :
    levelAt stream (place + count) =
      levelAt stream place + braceLevel ((stream.drop place).take count) := by
  rw [levelAt, List.take_add, braceLevel_append]
  rfl

/-- The candidate is the region of its anchor: its opening brace is the first one from the anchor
on, and it ends with the brace that closes this one, or with the stream if none does. -/
structure BlockOf (stream : List String) (opening : Nat) (candidate : Candidate) : Prop where
  slice : candidate.tokens =
    (stream.drop candidate.start).take (candidate.stop - candidate.start)
  bounded : candidate.stop ≤ stream.length
  before : candidate.start ≤ opening
  nonempty : opening < candidate.stop
  opened : stream[opening]? = some openBrace
  unopened : ∀ place, candidate.start ≤ place → place < opening →
    stream[place]? ≠ some openBrace
  inside : ∀ place, opening < place → place < candidate.stop →
    levelAt stream opening < levelAt stream place
  closed : levelAt stream candidate.stop = levelAt stream opening ∨
    candidate.stop = stream.length ∧ levelAt stream opening < levelAt stream candidate.stop

namespace Splitter

variable (splitter : Splitter)

theorem exists_anchor_of_mem {index : Nat} {tokens : List String} {candidate : Candidate}
    (member : candidate ∈ splitter.bracedFrom index tokens) :
    ∃ place count, openBrace ∈ tokens.drop place ∧
      regionLength (tokens.drop place) = some count ∧
      candidate = ⟨index + place, index + place + count, (tokens.drop place).take count⟩ := by
  induction tokens generalizing index with
  | nil => simp [bracedFrom] at member
  | cons anchor rest inductionHypothesis =>
      have later : candidate ∈ splitter.bracedFrom (index + 1) rest →
          ∃ place count, openBrace ∈ (anchor :: rest).drop place ∧
            regionLength ((anchor :: rest).drop place) = some count ∧ candidate =
              ⟨index + place, index + place + count, ((anchor :: rest).drop place).take count⟩ := by
        intro inRest
        obtain ⟨place, count, opens, length, same⟩ := inductionHypothesis inRest
        refine ⟨place + 1, count, opens, length, ?_⟩
        rw [same, Nat.add_assoc index 1 place, Nat.add_comm 1 place]
        rfl
      rw [bracedFrom] at member
      split at member
      · by_cases opens : openBrace ∈ anchor :: rest
        · obtain ⟨lead, body, count, -, -, length, -⟩ := regionLength_of_mem opens
          rw [length] at member
          rcases List.mem_cons.1 member with same | inRest
          · exact ⟨0, _, opens, length, same⟩
          · exact later inRest
        · rw [regionLength_of_not_mem opens] at member
          exact later member
      · exact later member

theorem blockOf_of_mem {stream : List String} {candidate : Candidate}
    (member : candidate ∈ splitter.bracedFrom 0 stream) :
    ∃ opening, BlockOf stream opening candidate := by
  obtain ⟨place, length, opens, counted, rfl⟩ := splitter.exists_anchor_of_mem member
  obtain ⟨lead, body, count, shape, unopened, region, closes⟩ := regionLength_of_mem opens
  obtain rfl : length = lead.length + 1 + count :=
    Option.some.inj (counted.symm.trans region)
  have size : place + lead.length + 1 + body.length = stream.length := by
    have lengths := congrArg List.length shape
    simp only [List.length_drop, List.length_append, List.length_cons] at lengths
    omega
  have tokenAt : ∀ offset, stream[place + offset]? = (lead ++ openBrace :: body)[offset]? := by
    intro offset
    rw [← shape, List.getElem?_drop]
  have levelInBody : ∀ taken, levelAt stream (place + lead.length + (taken + 1)) =
      levelAt stream (place + lead.length) + (1 + braceLevel (body.take taken)) := by
    intro taken
    have opening : stream.drop (place + lead.length) = openBrace :: body := by
      rw [← List.drop_drop, shape, List.drop_left]
    rw [levelAt_add, opening]
    rfl
  have bounded := closes.bounded
  refine ⟨place + lead.length, ?_, ?_, ?_, ?_, ?_, ?_, ?_, ?_⟩
  · simp only [Nat.zero_add, Nat.add_sub_cancel_left]
  · dsimp only
    omega
  · dsimp only
    omega
  · dsimp only
    omega
  · rw [tokenAt, List.getElem?_append_right (Nat.le_refl _), Nat.sub_self]
    rfl
  · intro position after earlier here
    dsimp only at after
    obtain ⟨offset, rfl⟩ : ∃ offset, position = place + offset := ⟨position - place, by omega⟩
    rw [tokenAt, List.getElem?_append_left (by omega)] at here
    exact unopened (List.mem_of_getElem? here)
  · intro position after earlier
    dsimp only at earlier
    obtain ⟨taken, rfl⟩ : ∃ taken, position = place + lead.length + (taken + 1) :=
      ⟨position - (place + lead.length) - 1, by omega⟩
    have positive := closes.inside taken (by omega)
    rw [levelInBody]
    omega
  · have stop : 0 + place + (lead.length + 1 + count) = place + lead.length + (count + 1) := by
      omega
    dsimp only
    rw [stop, levelInBody]
    have closed := closes.closed
    omega

theorem map_start_bracedFrom (index : Nat) (tokens : List String) :
    (splitter.bracedFrom index tokens).map (fun candidate => candidate.start) =
      ((List.range tokens.length).filter fun place =>
        tokens[place]?.any splitter.isAnchor && decide (openBrace ∈ tokens.drop place)).map
          (index + ·) := by
  induction tokens generalizing index with
  | nil => rfl
  | cons anchor rest inductionHypothesis =>
      rw [List.length_cons, filter_range_succ, bracedFrom]
      simp only [List.getElem?_cons_zero, Option.any_some, List.drop_zero,
        List.getElem?_cons_succ, List.drop_succ_cons]
      by_cases anchors : splitter.isAnchor anchor = true
      · by_cases opens : openBrace ∈ anchor :: rest
        · obtain ⟨lead, body, count, -, -, length, -⟩ := regionLength_of_mem opens
          rw [if_pos anchors, length, if_pos (by simp only [anchors, opens]; rfl), List.map_cons,
            inductionHypothesis, List.map_append, map_add_succ]
          rfl
        · rw [if_pos anchors, regionLength_of_not_mem opens, if_neg (by simp [opens])]
          dsimp only
          rw [inductionHypothesis, List.nil_append, map_add_succ]
      · rw [if_neg anchors, if_neg (by simp [anchors]), inductionHypothesis, List.nil_append,
          map_add_succ]

end Splitter

namespace BlockOf

variable {stream : List String}

/-- In front of an opening brace that comes first the level does not change. -/
theorem levelAt_lead {opening : Nat} {candidate : Candidate}
    (block : BlockOf stream opening candidate) (opensFirst : OpensFirst candidate.tokens)
    {place : Nat} (after : candidate.start ≤ place) (upTo : place ≤ opening) :
    levelAt stream place = levelAt stream candidate.start := by
  have nonempty := block.nonempty
  obtain ⟨count, rfl⟩ : ∃ count, place = candidate.start + count :=
    ⟨place - candidate.start, by omega⟩
  have front : (stream.drop candidate.start).take count = candidate.tokens.take count := by
    rw [block.slice, List.take_take, Nat.min_eq_left (by omega)]
  have noOpen : ∀ token ∈ candidate.tokens.take count, token ≠ openBrace := by
    rintro token member rfl
    rw [← front] at member
    obtain ⟨offset, here⟩ := List.mem_iff_getElem?.1 member
    rw [List.getElem?_take, List.getElem?_drop] at here
    split at here
    · exact block.unopened _ (Nat.le_add_right _ _) (by omega) here
    · cases here
  have noClose : closeBrace ∉ candidate.tokens.take count := by
    intro member
    refine opensFirst ?_
    rw [← List.take_append_drop count candidate.tokens,
      List.takeWhile_append_of_pos fun token inside => decide_eq_true (noOpen token inside)]
    exact List.mem_append_left _ member
  have flat : braceLevel (candidate.tokens.take count) = 0 := by
    rw [braceLevel_eq_counts, List.count_eq_zero.2 noClose,
      List.count_eq_zero.2 fun member => noOpen _ member rfl]
    rfl
  rw [levelAt_add, front, flat, Int.add_zero]

theorem levelAt_start_le {opening : Nat} {candidate : Candidate}
    (block : BlockOf stream opening candidate) (opensFirst : OpensFirst candidate.tokens)
    {place : Nat} (after : candidate.start ≤ place) (upTo : place ≤ candidate.stop) :
    levelAt stream candidate.start ≤ levelAt stream place := by
  have atOpening := block.levelAt_lead opensFirst block.before (Nat.le_refl opening)
  have closed := block.closed
  have inside := block.inside place
  by_cases lead : place ≤ opening
  · exact Int.le_of_eq (block.levelAt_lead opensFirst after lead).symm
  · by_cases last : place = candidate.stop
    · rw [last]
      omega
    · have above := inside (by omega) (by omega)
      omega

/-- A region of a balanced stream is balanced if it opens first. -/
theorem balanced {opening : Nat} {candidate : Candidate} (block : BlockOf stream opening candidate)
    (whole : Balanced stream) (opensFirst : OpensFirst candidate.tokens) :
    Balanced candidate.tokens := by
  obtain ⟨fronts, total⟩ := balanced_iff_levels.1 whole
  have nonempty := Nat.lt_of_le_of_lt block.before block.nonempty
  have relative : ∀ count ≤ candidate.stop - candidate.start,
      levelAt stream (candidate.start + count) =
        levelAt stream candidate.start + braceLevel (candidate.tokens.take count) := by
    intro count upTo
    rw [levelAt_add, block.slice, List.take_take, Nat.min_eq_left upTo]
  have size : candidate.tokens.length = candidate.stop - candidate.start := by
    have bounded := block.bounded
    rw [block.slice, List.length_take, List.length_drop]
    omega
  have levelOfTokens := relative _ (Nat.le_refl _)
  rw [← size, List.take_length, size, Nat.add_sub_cancel' nonempty.le] at levelOfTokens
  have atOpening := block.levelAt_lead opensFirst block.before (Nat.le_refl opening)
  have openingLevel := fronts opening
  have closed : levelAt stream candidate.stop = levelAt stream opening := by
    refine block.closed.resolve_right fun ⟨last, above⟩ => ?_
    rw [last, levelAt, levelAt, List.take_length, total] at above
    omega
  refine balanced_iff_levels.2 ⟨fun count => ?_, by omega⟩
  by_cases within : count ≤ candidate.tokens.length
  · have same := relative count (by omega)
    have above := block.levelAt_start_le opensFirst (Nat.le_add_right candidate.start count)
      (by omega)
    omega
  · rw [List.take_of_length_le (by omega)]
    omega

/-- A region that opens first does not reach out of an earlier one. -/
theorem laminar {firstOpening secondOpening : Nat} {first second : Candidate}
    (outer : BlockOf stream firstOpening first) (inner : BlockOf stream secondOpening second)
    (order : first.start < second.start) (opensFirst : OpensFirst second.tokens) :
    first.Laminar second := by
  refine Candidate.laminar_of_inside order fun inside => ?_
  by_contra beyond
  have crossed : first.stop < second.stop := Nat.not_le.1 beyond
  have closed : levelAt stream first.stop = levelAt stream firstOpening := by
    refine outer.closed.resolve_right fun ⟨last, _⟩ => ?_
    have bounded := inner.bounded
    omega
  have before := inner.before
  have nonempty := outer.nonempty
  by_cases shared : second.start ≤ firstOpening
  · -- Both have the same opening brace, and the later one stays open where the earlier one closes.
    have same : secondOpening = firstOpening := by
      rcases Nat.lt_trichotomy secondOpening firstOpening with less | same | less
      · exact absurd inner.opened (outer.unopened _ (by omega) less)
      · exact same
      · exact absurd outer.opened (inner.unopened _ shared less)
    have stillOpen := inner.inside first.stop (by omega) crossed
    rw [same] at stillOpen
    omega
  · -- The later one starts above the level at which the earlier one closes.
    have above := outer.inside second.start (by omega) inside
    by_cases lead : first.stop ≤ secondOpening
    · have flat := inner.levelAt_lead opensFirst (Nat.le_of_lt inside) lead
      omega
    · have flat := inner.levelAt_lead opensFirst before (Nat.le_refl secondOpening)
      have stillOpen := inner.inside first.stop (by omega) crossed
      omega

end BlockOf

/-! ## The split of a balanced stream -/

namespace Splitter

variable (splitter : Splitter)

/-- The tokens of a text without its comments. -/
def stream (text : String) : List String :=
  Token.ofText splitter.padding (joinLines (splitter.comments.bareLines text.toList))

theorem candidates_braced (braced : splitter.mode = .braces) (text : String) :
    splitter.candidates text = splitter.bracedFrom 0 (splitter.stream text) := by
  rw [candidates, braced]
  rfl

theorem ascending_braced (braced : splitter.mode = .braces) (text : String) :
    (splitter.candidates text).Pairwise fun first second => first.start < second.start := by
  have starts := splitter.map_start_bracedFrom 0 (splitter.stream text)
  rw [← splitter.candidates_braced braced] at starts
  simp only [Nat.zero_add, List.map_id'] at starts
  exact ascending_of_starts starts

theorem balanced_iff_opensFirst_of_mem (braced : splitter.mode = .braces) {text : String}
    (balanced : Balanced (splitter.stream text)) {candidate : Candidate}
    (member : candidate ∈ splitter.candidates text) :
    Balanced candidate.tokens ↔ OpensFirst candidate.tokens := by
  rw [splitter.candidates_braced braced] at member
  obtain ⟨opening, block⟩ := splitter.blockOf_of_mem member
  exact ⟨Balanced.opensFirst, block.balanced balanced⟩

theorem pairwise_laminar_of_opensFirst (braced : splitter.mode = .braces) (text : String) :
    (splitter.candidates text).Pairwise fun first second =>
      OpensFirst second.tokens → first.Laminar second := by
  refine (splitter.ascending_braced braced text).imp_of_mem
    fun firstMember secondMember order opensFirst => ?_
  rw [splitter.candidates_braced braced] at firstMember secondMember
  obtain ⟨firstOpening, outer⟩ := splitter.blockOf_of_mem firstMember
  obtain ⟨secondOpening, inner⟩ := splitter.blockOf_of_mem secondMember
  exact outer.laminar inner order opensFirst

/-- What a split of a balanced stream returns is balanced exactly if no brace closes before its
first one opens, and such a region does not reach out of any earlier one. -/
theorem split_braced_of_balanced (braced : splitter.mode = .braces) (text : String)
    (balanced : Balanced (splitter.stream text)) :
    (∀ body ∈ (splitter.split text).bodies, Balanced body.tokens ↔ OpensFirst body.tokens) ∧
      (∀ tokens ∈ (splitter.split text).rejected, Balanced tokens ↔ OpensFirst tokens) ∧
      splitter.Collects (splitter.candidates text) (splitter.split text) ∧
      (splitter.candidates text).Pairwise fun first second =>
        OpensFirst second.tokens → first.Laminar second := by
  have collected := splitter.collects_collect (splitter.ascending_braced braced text)
  refine ⟨fun body member => ?_, fun tokens member => ?_, collected,
    splitter.pairwise_laminar_of_opensFirst braced text⟩
  · obtain ⟨candidate, among, same⟩ := splitter.collect_bodies_mem 0 _ body member
    rw [← same]
    exact splitter.balanced_iff_opensFirst_of_mem braced balanced among
  · obtain ⟨candidate, among, rfl⟩ := collected.exists_candidate_of_rejected member
    exact splitter.balanced_iff_opensFirst_of_mem braced balanced among

/-- Structures as C-like languages write them. -/
def structs : Splitter where
  anchors := ["struct"]
  header := {
    name := "struct"
    pattern := .seq [.keyword "struct", .named "name" (.word .letters .alphanumeric)]
    terminal := none }
  comments := ⟨"//", "/*", "*/"⟩
  mode := .braces
  padding := Token.Padding.godot

/-- A declaration without a body takes the body of the next one, and what is balanced stays so. -/
theorem split_braced_of_balanced_structs :
    let text := "struct A { int x; struct B { } }\nstruct C;\nstruct { }"
    structs.mode = .braces ∧ Balanced (structs.stream text) ∧
      (structs.split text).bodies.map (fun body => body.name) = ["A", "B", "C"] ∧
      ∀ body ∈ (structs.split text).bodies, Balanced body.tokens ↔ OpensFirst body.tokens := by
  intro text
  have balanced : Balanced (structs.stream text) := by decide +kernel
  exact ⟨rfl, balanced, by decide +kernel, (split_braced_of_balanced structs rfl text balanced).1⟩

/-- At the end of another body it reaches over the closing brace of that body. -/
theorem bodiless_struct_not_balanced :
    let text := "struct A { struct B ; } struct C { }"
    structs.mode = .braces ∧ Balanced (structs.stream text) ∧
      (structs.split text).bodies = [
        ⟨"A", ["struct", "A", "\x7b", "struct", "B", ";", "\x7d"]⟩,
        ⟨"B", ["struct", "B", ";", "\x7d", "struct", "C", "\x7b", "\x7d"]⟩,
        ⟨"C", ["struct", "C", "\x7b", "\x7d"]⟩] ∧
      ¬ Balanced ["struct", "B", ";", "\x7d", "struct", "C", "\x7b", "\x7d"] ∧
      ¬ (structs.candidates text).Pairwise Candidate.Laminar := by
  decide +kernel

end Splitter

end GodotGraph.Scope
