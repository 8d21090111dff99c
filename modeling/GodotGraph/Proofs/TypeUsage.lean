import GodotGraph.Proofs.Grammar.TypeChain
import GodotGraph.Proofs.Record.Names
import GodotGraph.Record.Table
import GodotGraph.TypeUsage

/-!
Contract: the dependencies that an entity gets from the types in its tokens.

Owns:
- the names that the markers of a stream mention;
- which of them are added, in which order, and that adding them again changes nothing.

A name counts for what it is and for where it stands first. That other names were added before
it matters to neither.

Does not own: the parts of a type chain.
-/

set_option autoImplicit false

namespace GodotGraph.TypeUsage

open Grammar (Alternates segmentCapture)

/-! ## Mentions -/

/-- The stream starts with a marker, and the token behind the marker spells the name. A chain of
one name in front of a call is a method and spells nothing. -/
inductive Mentions : List String → String → Prop where
  /-- A type behind a colon or an arrow. -/
  | declared {marker following parts : List String} {token : String}
      (marks : marker ∈ [[":"], ["->"], ["-", ">"]]) (inLine : token ≠ Token.newline)
      (spells : chain? token = some parts) :
      Mentions (marker ++ token :: following) (String.join parts)
  /-- A value. -/
  | assigned {following parts : List String} {token : String} (inLine : token ≠ Token.newline)
      (spells : chain? token = some parts) (noCall : following.head? ≠ some "(") :
      Mentions ("=" :: token :: following) (String.join parts)
  /-- A method of a type. -/
  | called {following front : List String} {token separator last : String}
      (inLine : token ≠ Token.newline) (spells : chain? token = some (front ++ [separator, last])) :
      Mentions ("=" :: token :: "(" :: following) (String.join front)

/-- The name that the start of a stream mentions. -/
def mentioned? (tokens : List String) : Option String :=
  (marker? tokens).bind fun (marker, after) => nameAfter? marker after

theorem mentions_cons (token : String) (rest : List String) :
    mentions (token :: rest) = (mentioned? (token :: rest)).toList ++ mentions rest :=
  rfl

theorem marker?_eq_some_iff {tokens after : List String} {marker : Marker} :
    marker? tokens = some (marker, after) ↔
      (marker = .declared ∧ ∃ opening ∈ [[":"], ["->"], ["-", ">"]], tokens = opening ++ after) ∨
        (marker = .assigned ∧ tokens = "=" :: after) := by
  constructor
  · intro found
    cases tokens with
    | nil => simp [marker?] at found
    | cons token rest =>
        simp only [marker?] at found
        split_ifs at found with opens dash equals
        · obtain ⟨rfl, rfl⟩ : Marker.declared = marker ∧ rest = after := by simpa using found
          exact Or.inl ⟨rfl, [token], by simpa using opens, rfl⟩
        · subst dash
          cases rest with
          | nil => cases found
          | cons next others =>
              dsimp only at found
              split_ifs at found with arrow
              subst arrow
              obtain ⟨rfl, rfl⟩ : Marker.declared = marker ∧ others = after := by simpa using found
              exact Or.inl ⟨rfl, ["-", ">"], by simp, rfl⟩
        · subst equals
          obtain ⟨rfl, rfl⟩ : Marker.assigned = marker ∧ rest = after := by simpa using found
          exact Or.inr ⟨rfl, rfl⟩
  · rintro (⟨rfl, opening, opens, rfl⟩ | ⟨rfl, rfl⟩)
    · simp only [List.mem_cons, List.not_mem_nil, or_false] at opens
      rcases opens with rfl | rfl | rfl <;> rfl
    · rfl

theorem nameAfter?_eq_some_iff {marker : Marker} {after : List String} {name : String} :
    nameAfter? marker after = some name ↔
      ∃ token rest parts, after = token :: rest ∧ token ≠ Token.newline ∧
        chain? token = some parts ∧
        name = String.join (if marker = .assigned ∧ rest.head? = some "(" then
          parts.take (parts.length - 2) else parts) := by
  cases after with
  | nil => simp [nameAfter?]
  | cons token rest =>
      simp only [nameAfter?, Option.ite_none_left_eq_some, Option.map_eq_some_iff]
      constructor
      · rintro ⟨inLine, parts, spells, rfl⟩
        exact ⟨token, rest, parts, rfl, inLine, spells, by simp⟩
      · rintro ⟨_, _, parts, shape, inLine, spells, rfl⟩
        obtain ⟨rfl, rfl⟩ := List.cons.inj shape
        exact ⟨inLine, parts, spells, by simp⟩

/-- Every chain is made of names and dots, whatever the token. -/
theorem alternates_of_chain? {token : String} {parts : List String}
    (spells : chain? token = some parts) : Alternates parts := by
  rw [chain?] at spells
  split at spells
  · next found matched =>
      obtain rfl := Option.some.inj spells
      exact Grammar.alternates_parse matched
  · cases spells

/-- Names that are not empty are the mentions. -/
theorem mentions_iff {tokens : List String} {name : String} :
    Mentions tokens name ↔ mentioned? tokens = some name ∧ name ≠ "" := by
  rw [mentioned?]
  simp only [Option.bind_eq_some_iff, Prod.exists]
  constructor
  · intro mention
    cases mention with
    | @declared marker following parts token marks inLine spells =>
        have filled := (alternates_of_chain? spells).join_ne_empty
        exact ⟨⟨.declared, _, marker?_eq_some_iff.2 (Or.inl ⟨rfl, marker, marks, rfl⟩),
          nameAfter?_eq_some_iff.2 ⟨token, following, parts, rfl, inLine, spells, by simp⟩⟩, filled⟩
    | @assigned following parts token inLine spells noCall =>
        have filled := (alternates_of_chain? spells).join_ne_empty
        refine ⟨⟨.assigned, _, marker?_eq_some_iff.2 (Or.inr ⟨rfl, rfl⟩),
          nameAfter?_eq_some_iff.2 ⟨token, following, parts, rfl, inLine, spells, ?_⟩⟩, filled⟩
        simp [noCall]
    | @called following front token separator last inLine spells =>
        have alternates := alternates_of_chain? spells
        have before := (alternates.take_two (by simp)).1
        simp only [List.length_append, List.length_cons, List.length_nil, Nat.add_sub_cancel,
          List.take_left] at before
        refine ⟨⟨.assigned, _, marker?_eq_some_iff.2 (Or.inr ⟨rfl, rfl⟩),
          nameAfter?_eq_some_iff.2 ⟨token, "(" :: following, _, rfl, inLine, spells, ?_⟩⟩,
          before.join_ne_empty⟩
        simp
  · rintro ⟨⟨marker, after, found, named⟩, filled⟩
    obtain ⟨token, rest, parts, rfl, inLine, spells, rfl⟩ := nameAfter?_eq_some_iff.1 named
    rcases marker?_eq_some_iff.1 found with ⟨rfl, opening, opens, rfl⟩ | ⟨rfl, rfl⟩
    · simpa using Mentions.declared opens inLine spells
    · by_cases call : rest.head? = some "("
      · obtain ⟨following, rfl⟩ := List.head?_eq_some_iff.1 call
        rcases (alternates_of_chain? spells).split_last with ⟨only, rfl⟩ |
          ⟨front, dots, last, rfl, -⟩
        · simp at filled
        · simpa using Mentions.called inLine spells
      · simpa [call] using Mentions.assigned inLine spells call

example : mentions ["x", ":", "=", "Foo.bar", "(", "-", ">", "Kind.A"] = ["Foo", "Kind"] := by
  decide +kernel

/-! ## Places of mentions -/

theorem mem_mentions_iff {tokens : List String} {name : String} :
    name ∈ mentions tokens ↔ ∃ place, mentioned? (tokens.drop place) = some name := by
  induction tokens with
  | nil => simp [mentions, mentioned?, marker?]
  | cons token rest inductionHypothesis =>
      rw [mentions_cons, List.mem_append, inductionHypothesis, Option.mem_toList]
      constructor
      · rintro (here | ⟨place, later⟩)
        · exact ⟨0, here⟩
        · exact ⟨place + 1, later⟩
      · rintro ⟨place, found⟩
        cases place with
        | zero => exact Or.inl found
        | succ place => exact Or.inr ⟨place, found⟩

/-- At some place the first name is mentioned, and up to there the second one is not. -/
def MentionedBefore (tokens : List String) (earlier later : String) : Prop :=
  ∃ place, Mentions (tokens.drop place) earlier ∧
    ∀ before ≤ place, ¬ Mentions (tokens.drop before) later

theorem exists_place_of_idxOf_lt {tokens : List String} {earlier later : String}
    (before : (mentions tokens).idxOf earlier < (mentions tokens).idxOf later) :
    ∃ place, mentioned? (tokens.drop place) = some earlier ∧
      ∀ other ≤ place, mentioned? (tokens.drop other) ≠ some later := by
  induction tokens with
  | nil => simp [mentions] at before
  | cons token rest inductionHypothesis =>
      have step : mentioned? (token :: rest) ≠ some later →
          (mentions rest).idxOf earlier < (mentions rest).idxOf later →
            ∃ place, mentioned? ((token :: rest).drop place) = some earlier ∧
              ∀ other ≤ place, mentioned? ((token :: rest).drop other) ≠ some later := by
        intro absent inRest
        obtain ⟨place, found, none⟩ := inductionHypothesis inRest
        refine ⟨place + 1, found, fun other bounded => ?_⟩
        cases other with
        | zero => exact absent
        | succ other => exact none other (by omega)
      rw [mentions_cons] at before
      cases here : mentioned? (token :: rest) with
      | none =>
          rw [here] at before
          exact step (by simp [here]) (by simpa using before)
      | some name =>
          rw [here] at before
          simp only [Option.toList_some, List.singleton_append, List.idxOf_cons] at before
          by_cases isLater : name = later
          · simp [isLater] at before
          · by_cases isEarlier : name = earlier
            · subst isEarlier
              refine ⟨0, here, fun other bounded => ?_⟩
              obtain rfl : other = 0 := by omega
              simp [here, isLater]
            · refine step (by simp [here, isLater]) ?_
              simpa [beq_eq_false_iff_ne.2 isLater, beq_eq_false_iff_ne.2 isEarlier] using before

/-! ## What an entity gets -/

/-- The names that the types of an entity add to its dependencies. -/
structure Detected (known : List String) (entity : EntityRecord) (names : List String) : Prop where
  mem_iff : ∀ {name : String}, name ∈ names ↔
    name ∈ known ∧ name ∉ entity.dependencies ∧ name ≠ entity.uniqueName ∧
      name ≠ entity.localName ∧ ∃ place, Mentions (entity.tokens.drop place) name
  distinct : names.Nodup
  ordered : names.Pairwise (MentionedBefore entity.tokens)

theorem counts_iff {known : List String} {entity : EntityRecord} {name : String} :
    counts known entity name = true ↔
      name ≠ "" ∧ (name ≠ entity.uniqueName ∧ name ≠ entity.localName) ∧ name ∈ known := by
  simp [counts, EntityRecord.isNamed, and_assoc]

theorem mem_counted_iff {known : List String} {entity : EntityRecord} {name : String} :
    name ∈ (mentions entity.tokens).filter (counts known entity) ↔
      name ∈ known ∧ name ≠ entity.uniqueName ∧ name ≠ entity.localName ∧
        ∃ place, Mentions (entity.tokens.drop place) name := by
  simp only [List.mem_filter, mem_mentions_iff, counts_iff, mentions_iff, exists_and_right]
  tauto

theorem detected_of_firstOccurrences {known names : List String} {entity : EntityRecord}
    (first : FirstOccurrences (((mentions entity.tokens).filter (counts known entity)).filter
      fun name => name ∉ entity.dependencies) names) : Detected known entity names where
  mem_iff := by
    intro name
    rw [first.mem_iff, List.mem_filter, mem_counted_iff, decide_eq_true_eq]
    tauto
  distinct := first.distinct
  ordered := by
    refine first.ordered.imp_of_mem fun {earlier later} isEarlier isLater before => ?_
    obtain ⟨earlierCounted, earlierFresh⟩ := List.mem_filter.1 (first.mem_iff.1 isEarlier)
    obtain ⟨laterCounted, laterFresh⟩ := List.mem_filter.1 (first.mem_iff.1 isLater)
    have earlierCounts := (List.mem_filter.1 earlierCounted).2
    rw [idxOf_filter_lt_iff earlierFresh laterFresh,
      idxOf_filter_lt_iff earlierCounts (List.mem_filter.1 laterCounted).2] at before
    obtain ⟨place, found, none⟩ := exists_place_of_idxOf_lt before
    refine ⟨place, mentions_iff.2 ⟨found, (counts_iff.1 earlierCounts).1⟩, ?_⟩
    exact fun other bounded mention => none other bounded (mentions_iff.1 mention).1

theorem exists_detected (known : List String) (entity : EntityRecord) :
    ∃ names, dependencies known entity = entity.dependencies ++ names ∧
      Detected known entity names := by
  obtain ⟨names, shape, first⟩ := exists_firstOccurrences entity.dependencies
    ((mentions entity.tokens).filter (counts known entity))
  exact ⟨names, shape, detected_of_firstOccurrences first⟩

/-- Nothing is found a second time. -/
theorem dependencies_again {known names : List String} {entity : EntityRecord}
    (detected : Detected known entity names) :
    dependencies known { entity with dependencies := entity.dependencies ++ names } =
      entity.dependencies ++ names := by
  refine addAllOnce_of_subset fun name counted => ?_
  obtain ⟨isKnown, notUnique, notLocal, mentioned⟩ := mem_counted_iff.1 counted
  by_cases listed : name ∈ entity.dependencies
  · exact List.mem_append_left names listed
  · exact List.mem_append_right _
      (detected.mem_iff.2 ⟨isKnown, listed, notUnique, notLocal, mentioned⟩)

/-! ## One mention after the other -/

/-- Looks at one mention. A name that is not listed so far becomes a dependency and is counted. -/
def visit (known : List String) (state : EntityRecord × Nat) (name : String) :
    EntityRecord × Nat :=
  if counts known state.1 name && !state.1.dependencies.contains name then
    (state.1.depend name, state.2 + 1)
  else state

section Visits

variable {known : List String} {entity : EntityRecord} {name : String}

theorem visit_of_fresh (counted : counts known entity name = true)
    (fresh : name ∉ entity.dependencies) (count : Nat) :
    visit known (entity, count) name =
      ({ entity with dependencies := entity.dependencies ++ [name] }, count + 1) := by
  simp [visit, counted, fresh, EntityRecord.depend, addOnce_of_not_mem fresh]

theorem visit_of_idle (idle : counts known entity name = false ∨ name ∈ entity.dependencies)
    (count : Nat) : visit known (entity, count) name = (entity, count) := by
  rcases idle with uncounted | listed
  · simp [visit, uncounted]
  · simp [visit, listed]

end Visits

/-- The number goes up whenever the list grows. -/
theorem foldl_visit (known : List String) (entity : EntityRecord) (count : Nat)
    (names : List String) :
    ∃ more, addAllOnce entity.dependencies (names.filter (counts known entity)) =
        entity.dependencies ++ more ∧
      names.foldl (visit known) (entity, count) =
        ({ entity with dependencies := entity.dependencies ++ more }, count + more.length) := by
  induction names generalizing entity count with
  | nil => exact ⟨[], by simp [addAllOnce]⟩
  | cons head rest inductionHypothesis =>
      rw [List.foldl_cons]
      cases counted : counts known entity head with
      | false =>
          rw [List.filter_cons_of_neg (by simp [counted]), visit_of_idle (Or.inl counted)]
          exact inductionHypothesis entity count
      | true =>
          rw [List.filter_cons_of_pos counted, addAllOnce_cons]
          by_cases listed : head ∈ entity.dependencies
          · rw [addOnce_of_mem listed, visit_of_idle (Or.inr listed)]
            exact inductionHypothesis entity count
          · rw [addOnce_of_not_mem listed, visit_of_fresh counted listed]
            -- Whether a name counts is no matter of the dependencies, so the filter stays.
            obtain ⟨more, shape, run⟩ := inductionHypothesis
              { entity with dependencies := entity.dependencies ++ [head] } (count + 1)
            refine ⟨head :: more, shape.trans (List.append_assoc _ _ _), run.trans ?_⟩
            rw [List.append_assoc, List.length_cons, Nat.add_assoc, Nat.add_comm 1]
            rfl

/-- Type usages are found exactly. Behind the former dependencies come the known names that a
marker of the tokens mentions, in the order of their first mention and each once, less those that
are listed already and the names of the entity. Nothing else of the entity changes, the number
counts these names, and the second time there are none. That is also what comes out if the mentions
are looked at one after the other. -/
theorem dependencies_exact (known : List String) (entity : EntityRecord) :
    ∃ names, Detected known entity names ∧
      RecordTable.redirectEntity (dependencies known) (.entity entity) =
        .entity { entity with dependencies := entity.dependencies ++ names } ∧
      added known entity = names.length ∧
      (mentions entity.tokens).foldl (visit known) (entity, 0) =
        ({ entity with dependencies := entity.dependencies ++ names }, names.length) ∧
      RecordTable.redirectEntity (dependencies known)
          (.entity { entity with dependencies := entity.dependencies ++ names }) =
        .entity { entity with dependencies := entity.dependencies ++ names } ∧
      added known { entity with dependencies := entity.dependencies ++ names } = 0 := by
  obtain ⟨names, shape, detected⟩ := exists_detected known entity
  obtain ⟨more, sameShape, visited⟩ := foldl_visit known entity 0 (mentions entity.tokens)
  obtain rfl : more = names := List.append_cancel_left (sameShape.symm.trans shape)
  have again := dependencies_again detected
  refine ⟨more, detected, ?_, ?_, ?_, ?_, ?_⟩
  · rw [RecordTable.redirectEntity, shape]
  · rw [added, shape, List.length_append, Nat.add_sub_cancel_left]
  · rw [visited, Nat.zero_add]
  · simp only [RecordTable.redirectEntity, again]
  · rw [added, again, Nat.sub_self]

end GodotGraph.TypeUsage
