import GodotGraph.Proofs.Scope.Braces

/-!
Contract: the brace counter on any stream, balanced or not.

Owns:
- nesting by rules of its own, and the brace that closes another one;
- nested tokens as balanced ones;
- the stop of the counter, which is behind the closing brace or at the end of the stream;
- the split of any stream at its braces.

Does not own: what more holds of the regions of a balanced stream.

The rules of nesting know neither a depth nor a place. The counter knows nothing else. Levels
stand between the two: nested tokens never go below the level they start at and come back to it.
-/

set_option autoImplicit false

namespace GodotGraph.Scope

/-! ## Nesting -/

/-- Blocks and tokens that are no braces, one after the other. A block has nested tokens between
its two braces. -/
inductive Nested : List String → Prop where
  | nil : Nested []
  | plain {token : String} {rest : List String} (noOpen : token ≠ openBrace)
      (noClose : token ≠ closeBrace) (later : Nested rest) : Nested (token :: rest)
  | block {body rest : List String} (inner : Nested body) (later : Nested rest) :
      Nested (openBrace :: (body ++ closeBrace :: rest))

/-- The brace at the second place closes the one that opens at the first: what lies between the
two is nested. -/
def ClosedAt (stream : List String) (opening closing : Nat) : Prop :=
  ∃ lead body later, stream = lead ++ openBrace :: (body ++ closeBrace :: later) ∧ Nested body ∧
    opening = lead.length ∧ closing = opening + 1 + body.length

theorem braceWeight_openBrace : braceWeight openBrace = 1 := rfl

theorem braceWeight_closeBrace : braceWeight closeBrace = -1 := rfl

theorem braceWeight_plain {token : String} (noOpen : token ≠ openBrace)
    (noClose : token ≠ closeBrace) : braceWeight token = 0 := by
  rw [braceWeight, if_neg noOpen, if_neg noClose]

theorem balanced_append_iff {first rest : List String} (front : Balanced first) :
    Balanced (first ++ rest) ↔ Balanced rest := by
  obtain ⟨firstFronts, firstTotal⟩ := balanced_iff_levels.1 front
  rw [balanced_iff_levels, balanced_iff_levels, braceLevel_append, firstTotal, Int.zero_add]
  refine and_congr_left fun _ => ⟨fun fronts count => ?_, fun fronts count => ?_⟩
  · have level := fronts (first.length + count)
    rwa [List.take_length_add_append, braceLevel_append, firstTotal, Int.zero_add] at level
  · rw [List.take_append, braceLevel_append]
    exact Int.add_nonneg (firstFronts count) (fronts (count - first.length))

theorem balanced_plain {token : String} (noOpen : token ≠ openBrace)
    (noClose : token ≠ closeBrace) : Balanced [token] := by
  have weight := braceWeight_plain noOpen noClose
  refine balanced_iff_levels.2 ⟨fun count => ?_, by rw [braceLevel_cons, weight]; rfl⟩
  cases count with
  | zero => simp
  | succ taken => simp [braceLevel_cons, weight]

/-- Braces around balanced tokens. -/
theorem Balanced.block {body : List String} (balanced : Balanced body) :
    Balanced (openBrace :: (body ++ [closeBrace])) := by
  obtain ⟨fronts, total⟩ := balanced_iff_levels.1 balanced
  refine balanced_iff_levels.2 ⟨fun count => ?_, ?_⟩
  · cases count with
    | zero => simp
    | succ taken =>
        have front := fronts taken
        have last : ∀ count, -1 ≤ braceLevel ([closeBrace].take count) := by
          intro count
          cases count with
          | zero => simp
          | succ more => simp [braceLevel_cons, braceWeight_closeBrace]
        rw [List.take_succ_cons, braceLevel_cons, braceWeight_openBrace, List.take_append,
          braceLevel_append]
        have behind := last (taken - body.length)
        omega
  · rw [braceLevel_cons, braceLevel_append, braceLevel_cons, braceWeight_openBrace,
      braceWeight_closeBrace, total]
    rfl

theorem balanced_block_append_iff {body : List String} (balanced : Balanced body)
    (later : List String) : Balanced (openBrace :: (body ++ closeBrace :: later)) ↔
      Balanced later := by
  have shape : openBrace :: (body ++ closeBrace :: later) =
      openBrace :: (body ++ [closeBrace]) ++ later := by simp
  rw [shape]
  exact balanced_append_iff balanced.block

/-! ## The stop of the counter -/

namespace Closes

variable {depth count : Nat} {tokens : List String}

/-- There is only one place where the counter can stop. -/
theorem unique (closes : Closes depth tokens count) {other : Nat}
    (alsoCloses : Closes depth tokens other) : count = other := by
  have notBefore : ∀ {first second : Nat}, Closes depth tokens first →
      Closes depth tokens second → ¬ first < second := by
    intro first second stops goesOn less
    have positive := goesOn.inside first less
    have bounded := goesOn.bounded
    have closed := stops.closed
    omega
  have notLess := notBefore closes alsoCloses
  have notMore := notBefore alsoCloses closes
  omega

/-- A counter that starts at depth one and comes back to zero has read balanced tokens and the
brace that closes behind them. -/
theorem exists_body (closes : Closes 1 tokens count)
    (zero : 1 + braceLevel (tokens.take count) = 0) :
    ∃ body later, tokens = body ++ closeBrace :: later ∧ count = body.length + 1 ∧
      Balanced body := by
  have bounded := closes.bounded
  cases count with
  | zero => simp at zero
  | succ last =>
      have positive := closes.inside last (Nat.lt_succ_self last)
      have split : tokens = tokens.take last ++ tokens[last] :: tokens.drop (last + 1) := by
        rw [List.getElem_cons_drop, List.take_append_drop]
      have size : (tokens.take last).length = last := List.length_take_of_le (by omega)
      have level : braceLevel (tokens.take (last + 1)) =
          braceLevel (tokens.take last) + braceWeight tokens[last] := by
        rw [List.take_add_one, List.getElem?_eq_getElem bounded, braceLevel_append]
        show _ + (braceWeight tokens[last] + 0) = _
        rw [Int.add_zero]
      have shuts : tokens[last] = closeBrace := by
        by_contra noClose
        by_cases opens : tokens[last] = openBrace
        · rw [opens, braceWeight_openBrace] at level
          omega
        · rw [braceWeight_plain opens noClose] at level
          omega
      rw [shuts, braceWeight_closeBrace] at level
      refine ⟨tokens.take last, tokens.drop (last + 1), by rw [← shuts]; exact split,
        by rw [size], balanced_iff_levels.2 ⟨fun taken => ?_, by omega⟩⟩
      rw [List.take_take]
      have inFront := closes.inside (min taken last) (by omega)
      omega

theorem of_balanced {body : List String} (balanced : Balanced body) (later : List String) :
    Closes 1 (body ++ closeBrace :: later) (body.length + 1) := by
  obtain ⟨fronts, total⟩ := balanced_iff_levels.1 balanced
  refine ⟨by simp, fun taken less => ?_, Or.inl ?_⟩
  · have front := fronts taken
    rw [List.take_append_of_le_length (Nat.le_of_lt_succ less)]
    omega
  · rw [List.take_length_add_append, braceLevel_append, total]
    rfl

end Closes

/-- Tokens are nested exactly if they are balanced. -/
theorem nested_iff_balanced {tokens : List String} : Nested tokens ↔ Balanced tokens := by
  constructor
  · intro nested
    induction nested with
    | nil => decide
    | plain noOpen noClose later inductionHypothesis =>
        exact (balanced_append_iff (balanced_plain noOpen noClose)).2 inductionHypothesis
    | block inner later innerHypothesis laterHypothesis =>
        exact (balanced_block_append_iff innerHypothesis _).2 laterHypothesis
  · intro balanced
    induction size : tokens.length using Nat.strong_induction_on generalizing tokens with
    | h size inductionHypothesis =>
      subst size
      cases tokens with
      | nil => exact .nil
      | cons token rest =>
          by_cases opens : token = openBrace
          · -- The counter finds the brace that closes, since the level comes back to zero.
            subst opens
            obtain ⟨count, -, closes⟩ := exists_blockLength Nat.one_pos rest
            have total := (balanced_iff_levels.1 balanced).2
            rw [braceLevel_cons, braceWeight_openBrace] at total
            have zero : 1 + braceLevel (rest.take count) = 0 := by
              rcases closes.closed with zero | ⟨last, positive⟩
              · exact zero
              · rw [last, List.take_length] at positive
                omega
            obtain ⟨body, later, rfl, -, inner⟩ := closes.exists_body zero
            have behind := (balanced_block_append_iff inner later).1 balanced
            have size : (openBrace :: (body ++ closeBrace :: later)).length =
                body.length + later.length + 2 := by
              simp only [List.length_cons, List.length_append]
              omega
            apply Nested.block
            · exact inductionHypothesis body.length (by omega) inner rfl
            · exact inductionHypothesis later.length (by omega) behind rfl
          · have noClose : token ≠ closeBrace := by
              rintro rfl
              have front := (balanced_iff_levels.1 balanced).1 1
              simp [braceLevel_cons, braceWeight_closeBrace] at front
            have later := (balanced_append_iff (balanced_plain opens noClose)).1 balanced
            have nested := inductionHypothesis rest.length (Nat.lt_succ_self _) later rfl
            exact .plain opens noClose nested

/-! ## The region of an anchor -/

theorem drop_of_opened {stream : List String} {opening : Nat}
    (opened : stream[opening]? = some openBrace) :
    stream.drop opening = openBrace :: stream.drop (opening + 1) := by
  obtain ⟨inside, same⟩ := List.getElem?_eq_some_iff.1 opened
  rw [List.drop_eq_getElem_cons inside, same]

/-- The region goes up to the brace that closes its opening brace, and this is the only such
brace; up to the end of the stream if there is none. The counter reads just the tokens of the
region from its opening brace on, and no brace closes at depth zero there. -/
structure CountedBlock (stream : List String) (opening : Nat) (candidate : Candidate) : Prop
    extends BlockOf stream opening candidate where
  counted : blockLength 0 (stream.drop opening) = some (candidate.stop - opening)
  matched : ∀ closing, ClosedAt stream opening closing → candidate.stop = closing + 1
  unmatched : (∀ closing, ¬ ClosedAt stream opening closing) → candidate.stop = stream.length

namespace BlockOf

variable {stream : List String} {opening : Nat} {candidate : Candidate}

theorem closes (block : BlockOf stream opening candidate) :
    Closes 1 (stream.drop (opening + 1)) (candidate.stop - (opening + 1)) := by
  have bounded := block.bounded
  have nonempty := block.nonempty
  have closed := block.closed
  have level : ∀ count, levelAt stream (opening + (count + 1)) =
      levelAt stream opening + (1 + braceLevel ((stream.drop (opening + 1)).take count)) := by
    intro count
    rw [levelAt_add, drop_of_opened block.opened]
    rfl
  have stop : candidate.stop = opening + (candidate.stop - (opening + 1) + 1) := by omega
  refine ⟨by rw [List.length_drop]; omega, fun taken less => ?_, ?_⟩
  · have inside := block.inside (opening + (taken + 1)) (by omega) (by omega)
    rw [level] at inside
    omega
  · rw [stop, level] at closed
    rw [List.length_drop]
    omega

theorem countedBlock (block : BlockOf stream opening candidate) :
    CountedBlock stream opening candidate := by
  have nonempty := block.nonempty
  have bounded := block.bounded
  refine ⟨block, ?counted, ?matched, ?unmatched⟩
  case counted =>
    obtain ⟨count, counted, closes⟩ := exists_blockLength Nat.one_pos (stream.drop (opening + 1))
    have same := closes.unique block.closes
    rw [drop_of_opened block.opened, blockLength, if_pos rfl, counted, same]
    show some (candidate.stop - (opening + 1) + 1) = _
    congr 1
    omega
  case matched =>
    rintro closing ⟨lead, body, later, shape, nested, rfl, rfl⟩
    have behind : stream.drop (lead.length + 1) = body ++ closeBrace :: later := by
      rw [shape, ← List.drop_drop, List.drop_left]
      rfl
    have closes := block.closes
    rw [behind] at closes
    have same := closes.unique (.of_balanced (nested_iff_balanced.1 nested) later)
    omega
  case unmatched =>
    intro unclosed
    rcases block.closes.closed with zero | ⟨last, -⟩
    · obtain ⟨body, later, behind, -, balanced⟩ := block.closes.exists_body zero
      have shape : stream = stream.take opening ++ openBrace :: (body ++ closeBrace :: later) := by
        rw [← behind, ← drop_of_opened block.opened, List.take_append_drop]
      have size : opening = (stream.take opening).length := by
        rw [List.length_take_of_le (by omega)]
      exact absurd ⟨_, body, later, shape, nested_iff_balanced.2 balanced, size, rfl⟩
        (unclosed (opening + 1 + body.length))
    · rw [List.length_drop] at last
      omega

end BlockOf

/-! ## The split of a stream -/

namespace Splitter

variable (splitter : Splitter)

/-- The named bodies of a stream of tokens, and its regions without a name. -/
def splitStream (stream : List String) : Split :=
  splitter.collect 0 (splitter.bracedFrom 0 stream)

/-- What braces give for a stream: the candidates start at the anchors with an opening brace at
the same place or later, in order, and they go as far as the counter does; those with a name are
the bodies and the others are rejected unless one with a name covers their start. -/
structure BracedSplit (stream : List String) (candidates : List Candidate) (result : Split) :
    Prop where
  starts : candidates.map (fun candidate => candidate.start) =
    (List.range stream.length).filter fun place =>
      stream[place]?.any splitter.isAnchor && decide (openBrace ∈ stream.drop place)
  blocks : ∀ candidate ∈ candidates, ∃ opening, CountedBlock stream opening candidate
  collected : splitter.Collects candidates result

/-- Braces split every stream, however unbalanced, and a text is split as its stream. -/
theorem split_braced_of_any_stream (braced : splitter.mode = .braces) :
    (∀ stream, splitter.BracedSplit stream (splitter.bracedFrom 0 stream)
        (splitter.splitStream stream)) ∧
      ∀ text, splitter.split text = splitter.splitStream (splitter.stream text) := by
  constructor
  · intro stream
    have starts := splitter.map_start_bracedFrom 0 stream
    simp only [Nat.zero_add, List.map_id'] at starts
    have collected := splitter.collects_collect (ascending_of_starts starts)
    refine ⟨starts, fun candidate member => ?_, collected⟩
    obtain ⟨opening, block⟩ := splitter.blockOf_of_mem member
    exact ⟨opening, block.countedBlock⟩
  · intro text
    rw [split, splitter.candidates_braced braced]
    rfl

/-- Braces that close too early, one that is never closed, and an anchor with no brace behind. -/
theorem split_braced_of_any_stream_unbalanced :
    let text := "\x7d struct A \x7b \x7d \x7d struct \x7b struct B \x7b \x7b \x7d struct ;"
    structs.mode = .braces ∧ ¬ Balanced (structs.stream text) ∧
      (structs.split text).bodies = [
        ⟨"A", ["struct", "A", "\x7b", "\x7d"]⟩,
        ⟨"B", ["struct", "B", "\x7b", "\x7b", "\x7d", "struct", ";"]⟩] ∧
      (structs.split text).rejected = [
        ["struct", "\x7b", "struct", "B", "\x7b", "\x7b", "\x7d", "struct", ";"]] ∧
      structs.BracedSplit (structs.stream text) (structs.bracedFrom 0 (structs.stream text))
        (structs.split text) := by
  intro text
  obtain ⟨ofStream, ofText⟩ := split_braced_of_any_stream structs rfl
  refine ⟨rfl, by decide +kernel, by decide +kernel, by decide +kernel, ?_⟩
  rw [ofText text]
  exact ofStream (structs.stream text)

end Splitter

end GodotGraph.Scope
