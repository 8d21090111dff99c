import GodotGraph.Proofs.Scope.Region

/-!
Contract: where the candidates of a text lie.

Owns:
- candidates that are apart and candidates inside one another;
- the rejected ones among candidates in the order of their starts.

Does not own: what a position counts. The candidates of one text count lines, or tokens.
-/

set_option autoImplicit false

namespace GodotGraph.Scope

namespace Candidate

/-- The position belongs to the region. -/
def Covers (candidate : Candidate) (place : Nat) : Prop :=
  candidate.start ≤ place ∧ place < candidate.stop

/-- One of the two ends where the other starts, or before. -/
def Apart (first second : Candidate) : Prop :=
  first.stop ≤ second.start ∨ second.stop ≤ first.start

/-- The first of the two is a part of the second. -/
def Within (inner outer : Candidate) : Prop :=
  outer.start ≤ inner.start ∧ inner.stop ≤ outer.stop

/-- The two are disjoint, or one contains the other. -/
def Laminar (first second : Candidate) : Prop :=
  first.Apart second ∨ first.Within second ∨ second.Within first

instance (candidate : Candidate) (place : Nat) : Decidable (candidate.Covers place) :=
  inferInstanceAs (Decidable (_ ∧ _))

instance (first second : Candidate) : Decidable (first.Apart second) :=
  inferInstanceAs (Decidable (_ ∨ _))

instance (inner outer : Candidate) : Decidable (inner.Within outer) :=
  inferInstanceAs (Decidable (_ ∧ _))

instance (first second : Candidate) : Decidable (first.Laminar second) :=
  inferInstanceAs (Decidable (_ ∨ _))

/-- Of two regions in order it is enough that the later one does not reach over the end of the
earlier one. -/
theorem laminar_of_inside {first second : Candidate} (order : first.start < second.start)
    (inside : second.start < first.stop → second.stop ≤ first.stop) : first.Laminar second := by
  by_cases apart : first.stop ≤ second.start
  · exact Or.inl (Or.inl apart)
  · exact Or.inr (Or.inr ⟨Nat.le_of_lt order, inside (Nat.not_le.1 apart)⟩)

end Candidate

namespace Splitter

variable (splitter : Splitter)

/-- The header of the candidate gives a name. -/
def Names (candidate : Candidate) : Prop :=
  (splitter.headerName candidate.tokens).isSome = true

instance (candidate : Candidate) : Decidable (splitter.Names candidate) :=
  inferInstanceAs (Decidable (_ = true))

/-- No candidate with a name covers the start of this one. In particular it has no name. -/
def Stray (candidates : List Candidate) (candidate : Candidate) : Prop :=
  ¬ splitter.Names candidate ∧
    ∀ other ∈ candidates, splitter.Names other → ¬ other.Covers candidate.start

instance (candidates : List Candidate) (candidate : Candidate) :
    Decidable (splitter.Stray candidates candidate) :=
  inferInstanceAs (Decidable (_ ∧ _))

theorem bodies_collect_of_names (covered : Nat) (candidates : List Candidate) :
    (splitter.collect covered candidates).bodies =
      candidates.filterMap fun candidate => splitter.body? candidate.tokens := by
  rw [bodies_collect, List.filterMap_map]
  rfl

/-- What is covered so far speaks for the named candidates before the ones that are left. -/
theorem rejected_collect_of_covered (covered : Nat) {candidates : List Candidate}
    (ascending : candidates.Pairwise fun first second => first.start < second.start) :
    (splitter.collect covered candidates).rejected =
      (candidates.filter fun candidate =>
        decide (¬ candidate.start < covered ∧ splitter.Stray candidates candidate)).map
          fun candidate => candidate.tokens := by
  induction candidates generalizing covered with
  | nil => rfl
  | cons candidate others inductionHypothesis =>
      obtain ⟨before, othersAscending⟩ := List.pairwise_cons.1 ascending
      have notInOthers : ∀ other ∈ others, ¬ other.Covers candidate.start := by
        intro other member covers
        exact absurd (before other member) (Nat.not_lt.2 covers.1)
      rw [collect]
      cases named : splitter.headerName candidate.tokens with
      | some name =>
          have hasName : splitter.Names candidate := by simp [Names, named]
          have notStray : ¬ splitter.Stray (candidate :: others) candidate :=
            fun stray => stray.1 hasName
          dsimp only
          rw [inductionHypothesis _ othersAscending, List.filter_cons_of_neg (by simp [notStray])]
          congr 1
          refine List.filter_congr fun other member => decide_eq_decide.2 ?_
          have later := before other member
          have covers : candidate.Covers other.start ↔ other.start < candidate.stop :=
            ⟨fun both => both.2, fun inside => ⟨Nat.le_of_lt later, inside⟩⟩
          simp only [Stray, List.forall_mem_cons, hasName, forall_const, covers]
          constructor
          · rintro ⟨outside, nameless, none⟩
            exact ⟨by omega, nameless, by omega, none⟩
          · rintro ⟨outside, nameless, alsoOutside, none⟩
            exact ⟨by omega, nameless, none⟩
      | none =>
          have nameless : ¬ splitter.Names candidate := by simp [Names, named]
          have same : ∀ other, splitter.Stray (candidate :: others) other ↔
              splitter.Stray others other := by
            intro other
            simp only [Stray, List.forall_mem_cons, nameless, false_implies, true_and]
          have stray : splitter.Stray others candidate :=
            ⟨nameless, fun other member _ => notInOthers other member⟩
          dsimp only
          simp only [same]
          split
          · next inside =>
              rw [inductionHypothesis _ othersAscending,
                List.filter_cons_of_neg (by simp [inside])]
          · next outside =>
              rw [inductionHypothesis _ othersAscending,
                List.filter_cons_of_pos (by simp [outside, stray]), List.map_cons]

/-- The candidates with a name are the bodies, and the stray ones are rejected, in order. -/
structure Collects (candidates : List Candidate) (result : Split) : Prop where
  bodies : result.bodies = candidates.filterMap fun candidate =>
    (splitter.headerName candidate.tokens).map fun name => ⟨name, candidate.tokens⟩
  rejected : result.rejected =
    (candidates.filter fun candidate => decide (splitter.Stray candidates candidate)).map
      fun candidate => candidate.tokens

theorem collects_collect {candidates : List Candidate}
    (ascending : candidates.Pairwise fun first second => first.start < second.start) :
    splitter.Collects candidates (splitter.collect 0 candidates) := by
  constructor
  · exact splitter.bodies_collect_of_names 0 candidates
  · rw [splitter.rejected_collect_of_covered 0 ascending]
    simp only [Nat.not_lt_zero, not_false_eq_true, true_and]

theorem Collects.map_tokens_bodies {splitter : Splitter} {candidates : List Candidate}
    {result : Split} (collected : splitter.Collects candidates result) :
    result.bodies.map (fun body => body.tokens) =
      (candidates.filter fun candidate => decide (splitter.Names candidate)).map
        fun candidate => candidate.tokens := by
  rw [collected.bodies, List.map_filterMap, ← List.filterMap_eq_filter, List.map_filterMap]
  refine List.filterMap_congr fun candidate _ => ?_
  cases named : splitter.headerName candidate.tokens with
  | none => simp [Option.guard, Names, named]
  | some name => simp [Option.guard, Names, named]

theorem Collects.exists_candidate_of_rejected {splitter : Splitter} {candidates : List Candidate}
    {result : Split} (collected : splitter.Collects candidates result) {tokens : List String}
    (member : tokens ∈ result.rejected) :
    ∃ candidate ∈ candidates, candidate.tokens = tokens := by
  rw [collected.rejected] at member
  obtain ⟨candidate, stray, same⟩ := List.mem_map.1 member
  exact ⟨candidate, List.mem_of_mem_filter stray, same⟩

end Splitter

/-! ## Starts -/

/-- The places that satisfy a test, read from the first one on. -/
theorem filter_range_succ (test : Nat → Bool) (size : Nat) :
    (List.range (size + 1)).filter test =
      (if test 0 then [0] else []) ++
        ((List.range size).filter fun place => test (place + 1)).map (· + 1) := by
  rw [List.range_succ_eq_map, List.filter_cons, List.filter_map]
  split
  · rfl
  · rfl

theorem map_add_succ (index : Nat) (places : List Nat) :
    (places.map (· + 1)).map (index + ·) = places.map (index + 1 + ·) := by
  rw [List.map_map]
  refine List.map_congr_left fun place _ => ?_
  show index + (place + 1) = index + 1 + place
  omega

theorem ascending_of_starts {candidates : List Candidate} {size : Nat} {test : Nat → Bool}
    (starts : candidates.map (fun candidate => candidate.start) = (List.range size).filter test) :
    candidates.Pairwise fun first second => first.start < second.start := by
  have sorted : ((List.range size).filter test).Pairwise (· < ·) :=
    List.pairwise_lt_range.filter _
  rw [← starts, List.pairwise_map] at sorted
  exact sorted

end GodotGraph.Scope
