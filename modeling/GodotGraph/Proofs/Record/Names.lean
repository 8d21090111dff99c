import GodotGraph.Record
import Mathlib.Data.List.Nodup

/-!
Contract: lists to which names are added once.

Owns:
- what is in such a list, and that nothing is in it twice;
- the names that were added, as those of the added list in the order in which they first occur;
- lists that adding leaves as they are.

Does not own: which names a record depends on.
-/

set_option autoImplicit false

namespace GodotGraph

/-! ## Adding one name after the other -/

theorem addAllOnce_cons (names : List String) (head : String) (rest : List String) :
    addAllOnce names (head :: rest) = addAllOnce (addOnce names head) rest :=
  rfl

theorem addOnce_of_mem {names : List String} {name : String} (listed : name ∈ names) :
    addOnce names name = names := by
  simp [addOnce, listed]

theorem addOnce_of_not_mem {names : List String} {name : String} (fresh : name ∉ names) :
    addOnce names name = names ++ [name] := by
  simp [addOnce, fresh]

theorem mem_addAllOnce {names more : List String} {name : String} :
    name ∈ addAllOnce names more ↔ name ∈ names ∨ name ∈ more := by
  induction more generalizing names with
  | nil => simp [addAllOnce]
  | cons head rest inductionHypothesis =>
      rw [addAllOnce_cons, inductionHypothesis, mem_addOnce, List.mem_cons, or_assoc]

theorem nodup_addAllOnce {names : List String} (more : List String) (distinct : names.Nodup) :
    (addAllOnce names more).Nodup := by
  induction more generalizing names with
  | nil => exact distinct
  | cons head rest inductionHypothesis =>
      exact inductionHypothesis (nodup_addOnce head distinct)

/-- Names that are listed already change nothing. -/
theorem addAllOnce_of_subset {names more : List String} (listed : more ⊆ names) :
    addAllOnce names more = names := by
  induction more with
  | nil => rfl
  | cons head rest inductionHypothesis =>
      obtain ⟨first, others⟩ := List.cons_subset.1 listed
      rw [addAllOnce_cons, addOnce_of_mem first, inductionHypothesis others]

/-- Names that differ from each other and from those before them are all added. -/
theorem addAllOnce_of_nodup {names more : List String} (distinct : (names ++ more).Nodup) :
    addAllOnce names more = names ++ more := by
  induction more generalizing names with
  | nil => simp [addAllOnce]
  | cons head rest inductionHypothesis =>
      have fresh : head ∉ names := fun listed =>
        (List.nodup_append.1 distinct).2.2 head listed head List.mem_cons_self rfl
      rw [addAllOnce_cons, addOnce_of_not_mem fresh,
        inductionHypothesis (by simpa using distinct), List.append_assoc]
      rfl

/-! ## First occurrences -/

/-- The second list has the names of the first one, each once, in the order in which they first
occur there. -/
structure FirstOccurrences (names once : List String) : Prop where
  mem_iff : ∀ {name : String}, name ∈ once ↔ name ∈ names
  distinct : once.Nodup
  ordered : once.Pairwise fun earlier later => names.idxOf earlier < names.idxOf later

/-- Leaving out other names does not change which of two names comes first. -/
theorem idxOf_filter_lt_iff {wanted : String → Bool} {left right : String}
    (leftWanted : wanted left = true) (rightWanted : wanted right = true) (names : List String) :
    (names.filter wanted).idxOf left < (names.filter wanted).idxOf right ↔
      names.idxOf left < names.idxOf right := by
  induction names with
  | nil => simp
  | cons head rest inductionHypothesis =>
      cases kept : wanted head with
      | true =>
          rw [List.filter_cons_of_pos kept]
          by_cases isLeft : head = left
          · subst isLeft
            by_cases isRight : head = right
            · simp [isRight]
            · simp [isRight]
          · by_cases isRight : head = right
            · simp [isRight]
            · simp [isLeft, isRight, inductionHypothesis]
      | false =>
          have notLeft : head ≠ left := by
            rintro rfl
            rw [kept] at leftWanted
            cases leftWanted
          have notRight : head ≠ right := by
            rintro rfl
            rw [kept] at rightWanted
            cases rightWanted
          rw [List.filter_cons_of_neg (by simp [kept]), inductionHypothesis]
          simp [notLeft, notRight]

namespace FirstOccurrences

theorem nil : FirstOccurrences [] [] :=
  ⟨Iff.rfl, List.nodup_nil, List.Pairwise.nil⟩

/-- A name comes first, and those of the rest that differ from it come after it. -/
theorem cons {head : String} {rest once : List String}
    (others : FirstOccurrences (rest.filter fun name => name ≠ head) once) :
    FirstOccurrences (head :: rest) (head :: once) := by
  have differs : ∀ name ∈ once, name ≠ head := fun name listed => by
    simpa using (List.mem_filter.1 (others.mem_iff.1 listed)).2
  refine ⟨?members, List.nodup_cons.2 ⟨fun listed => differs head listed rfl, others.distinct⟩,
    List.pairwise_cons.2 ⟨?first, ?later⟩⟩
  case members =>
    intro name
    by_cases isHead : name = head <;> simp [isHead, others.mem_iff]
  case first =>
    intro name listed
    simp [(differs name listed).symm]
  case later =>
    refine others.ordered.imp_of_mem ?_
    intro earlier later earlierIn laterIn before
    have notHead := differs earlier earlierIn
    have laterNotHead := differs later laterIn
    rw [idxOf_filter_lt_iff (by simpa using notHead) (by simpa using laterNotHead)] at before
    simpa [List.idxOf_cons, notHead.symm, laterNotHead.symm] using before

end FirstOccurrences

/-- The names added are those that were not listed, in the order of their first occurrence. -/
theorem exists_firstOccurrences (names more : List String) :
    ∃ added, addAllOnce names more = names ++ added ∧
      FirstOccurrences (more.filter fun name => name ∉ names) added := by
  induction more generalizing names with
  | nil => exact ⟨[], by simp [addAllOnce], .nil⟩
  | cons head rest inductionHypothesis =>
      by_cases listed : head ∈ names
      · obtain ⟨added, shape, first⟩ := inductionHypothesis names
        refine ⟨added, by rw [addAllOnce_cons, addOnce_of_mem listed, shape], ?_⟩
        rwa [List.filter_cons_of_neg (by simpa using listed)]
      · obtain ⟨added, shape, first⟩ := inductionHypothesis (names ++ [head])
        refine ⟨head :: added, ?_, ?_⟩
        · rw [addAllOnce_cons, addOnce_of_not_mem listed, shape, List.append_assoc]
          rfl
        · rw [List.filter_cons_of_pos (by simpa using listed)]
          refine .cons ?_
          rw [List.filter_filter]
          refine (congrArg (FirstOccurrences · added) (List.filter_congr ?_)).mp first
          intro name _
          simp [not_or, and_comm]

theorem firstOccurrences_addAllOnce (names : List String) :
    FirstOccurrences names (addAllOnce [] names) := by
  obtain ⟨added, shape, first⟩ := exists_firstOccurrences [] names
  rw [shape]
  simpa using first

end GodotGraph
