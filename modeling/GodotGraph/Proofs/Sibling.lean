import GodotGraph.Proofs.Grammar.Header
import GodotGraph.Proofs.Scope.Region
import GodotGraph.Script
import GodotGraph.Sibling
import Mathlib.Data.List.Forall2

/-!
Contract: parents that are classes of the same script, once all its classes are known.

Owns:
- unique names, which tell local names apart and have a dot in them unless the module has no
  name;
- the classes of one module, as a script gives them;
- linking as the replacement of local names by unique names, and of nothing else;
- linking twice, and linking in another order.

A class is among its own siblings. Two siblings of one local name share their unique name, so it
makes no difference which of them is found.
-/

set_option autoImplicit false

namespace GodotGraph

/-! ## Unique names -/

namespace Script

/-- The text has no dot in it. -/
def Dotless (name : String) : Prop :=
  '.' ∉ name.toList

theorem dotless_of_letters {name : String}
    (letters : ∀ c ∈ name.toList, Grammar.continuesName c = true) : Dotless name :=
  fun dot => absurd (letters '.' dot) (by decide)

theorem uniqueName_injective (moduleName : String) :
    Function.Injective (uniqueName moduleName) := by
  intro left right same
  unfold uniqueName at same
  split at same
  · exact same
  · have letters := congrArg String.toList same
    simp only [String.toList_append] at letters
    exact String.toList_injective (List.append_cancel_left letters)

theorem eq_of_dotless_uniqueName {moduleName name : String}
    (dotless : Dotless (uniqueName moduleName name)) : uniqueName moduleName name = name := by
  unfold uniqueName at dotless ⊢
  split at dotless
  · next empty => rw [if_pos empty]
  · exact absurd (by simp) dotless

end Script

namespace Sibling

open Script (Dotless eq_of_dotless_uniqueName uniqueName)

/-! ## Classes of one module -/

/-- The entities belong to one module, and their unique names follow from dotless local ones. -/
structure OfOneModule (moduleName : String) (entities : List EntityRecord) : Prop where
  moduleName_eq : ∀ entity ∈ entities, entity.moduleName = moduleName
  dotless : ∀ entity ∈ entities, Dotless entity.localName
  uniqueName_eq : ∀ entity ∈ entities, entity.uniqueName = uniqueName moduleName entity.localName

/-- The classes inside a script are of one module. -/
theorem ofOneModule_innerEntities (file : FileRecord) :
    OfOneModule file.moduleName (Script.innerEntities file).1 := by
  refine ⟨?_, ?dotless, ?_⟩
  case dotless =>
    intro entity member
    obtain ⟨body, inside, rfl⟩ := List.mem_map.1 member
    rw [Script.splitter.bodies_split rfl] at inside
    obtain ⟨tokens, _, isBody⟩ := List.mem_filterMap.1 inside
    obtain ⟨name, named, rfl⟩ := Option.map_eq_some_iff.1 isBody
    show Dotless name
    cases tokens with
    | nil => simp [Scope.Splitter.headerName] at named
    | cons anchor following =>
        simp only [Scope.Splitter.headerName] at named
        split at named
        · next found parsed =>
            obtain ⟨capture, isFirst, rfl⟩ := Option.map_eq_some_iff.1 named
            exact Script.dotless_of_letters
              (Grammar.letters_of_entityHeader parsed capture (List.mem_of_find?_eq_some isFirst))
        · cases named
  all_goals
    intro entity member
    obtain ⟨body, _, rfl⟩ := List.mem_map.1 member
    rfl

/-! ## One parent -/

/-- What linking makes of a parent: the unique name of each sibling whose local name it is, or the
parent as it was if there is no such sibling. -/
structure ParentLinked (siblings : List EntityRecord) (parent linked : String) : Prop where
  sibling : ∀ sibling ∈ siblings, sibling.localName = parent → linked = sibling.uniqueName
  stranger : (∀ sibling ∈ siblings, sibling.localName ≠ parent) → linked = parent

section

variable {moduleName : String} {entities : List EntityRecord}

theorem linkedName_of_mem (one : OfOneModule moduleName entities) {sibling : EntityRecord}
    (member : sibling ∈ entities) :
    linkedName entities sibling.localName = uniqueName moduleName sibling.localName := by
  unfold linkedName
  split
  · next first found =>
      have isName : first.localName = sibling.localName := by simpa using List.find?_some found
      rw [one.uniqueName_eq first (List.mem_of_find?_eq_some found), isName]
  · next none =>
      have differs := List.find?_eq_none.1 none sibling member
      simp at differs

theorem linkedName_of_stranger {parent : String}
    (stranger : ∀ sibling ∈ entities, sibling.localName ≠ parent) :
    linkedName entities parent = parent := by
  have none : (entities.find? fun entity => entity.localName = parent) = none :=
    List.find?_eq_none.2 fun sibling member => by simpa using stranger sibling member
  rw [linkedName, none]

theorem parentLinked_linkedName (one : OfOneModule moduleName entities) (parent : String) :
    ParentLinked entities parent (linkedName entities parent) := by
  refine ⟨?_, linkedName_of_stranger⟩
  rintro sibling member rfl
  rw [linkedName_of_mem one member, one.uniqueName_eq sibling member]

/-- A parent becomes the unique name that its own name would have, or stays. -/
theorem linkedName_cases (one : OfOneModule moduleName entities) (parent : String) :
    linkedName entities parent = uniqueName moduleName parent ∨
      linkedName entities parent = parent := by
  by_cases named : ∃ sibling ∈ entities, sibling.localName = parent
  · obtain ⟨sibling, member, rfl⟩ := named
    exact Or.inl (linkedName_of_mem one member)
  · exact Or.inr (linkedName_of_stranger (by simpa using named))

/-- Linking keeps different parents apart: the unique name of a sibling is either its local name
or has a dot in it, which no parent has before linking. -/
theorem eq_of_linkedName_eq (one : OfOneModule moduleName entities) {left right : String}
    (dotlessLeft : Dotless left) (dotlessRight : Dotless right)
    (same : linkedName entities left = linkedName entities right) : left = right := by
  rcases linkedName_cases one left with isLeft | isLeft <;>
    rcases linkedName_cases one right with isRight | isRight <;> rw [isLeft, isRight] at same
  · exact Script.uniqueName_injective _ same
  · rw [← same] at dotlessRight
    rw [← same, eq_of_dotless_uniqueName dotlessRight]
  · rw [same] at dotlessLeft
    rw [same, eq_of_dotless_uniqueName dotlessLeft]
  · exact same

/-- A linked parent is a unique name, which is a local name only where the two are the same. -/
theorem linkedName_linkedName (one : OfOneModule moduleName entities) (parent : String) :
    linkedName entities (linkedName entities parent) = linkedName entities parent := by
  rcases linkedName_cases one parent with unique | stays
  · by_cases dotless : Dotless (uniqueName moduleName parent)
    · have same := eq_of_dotless_uniqueName dotless
      rw [unique, same, unique, same]
    · refine linkedName_of_stranger fun sibling member isName => dotless ?_
      rw [← unique, ← isName]
      exact one.dotless sibling member
  · rw [stays, stays]

/-- Which siblings there are decides what a parent becomes, and not their order. -/
theorem linkedName_perm (one : OfOneModule moduleName entities) {reordered : List EntityRecord}
    (perm : reordered.Perm entities) : linkedName reordered = linkedName entities := by
  have oneReordered : OfOneModule moduleName reordered :=
    ⟨fun entity member => one.moduleName_eq entity (perm.subset member),
      fun entity member => one.dotless entity (perm.subset member),
      fun entity member => one.uniqueName_eq entity (perm.subset member)⟩
  funext parent
  by_cases named : ∃ sibling ∈ entities, sibling.localName = parent
  · obtain ⟨sibling, member, rfl⟩ := named
    rw [linkedName_of_mem one member, linkedName_of_mem oneReordered (perm.mem_iff.2 member)]
  · have stranger : ∀ sibling ∈ entities, sibling.localName ≠ parent := by simpa using named
    rw [linkedName_of_stranger stranger,
      linkedName_of_stranger fun sibling member => stranger sibling (perm.subset member)]

end

/-! ## All parents -/

/-- An entity before and after linking: its parents are linked, and all else is as it was. -/
inductive EntityLinked (siblings : List EntityRecord) : EntityRecord → EntityRecord → Prop where
  | parents {entity : EntityRecord} {inheritance : List String}
      (each : List.Forall₂ (ParentLinked siblings) entity.inheritance inheritance) :
      EntityLinked siblings entity { entity with inheritance := inheritance }

/-- The parents of all entities, one after the other. -/
def parents (entities : List EntityRecord) : List String :=
  entities.flatMap fun entity => entity.inheritance

/-- The number of parents that differ between two states of the same entities. -/
def changedParents (before after : List EntityRecord) : Nat :=
  ((parents before).zip (parents after)).countP fun pair => pair.1 ≠ pair.2

theorem parents_link (entities : List EntityRecord) :
    parents (link entities) = (parents entities).map (linkedName entities) := by
  rw [parents, parents, link, List.flatMap_map, List.map_flatMap]
  rfl

theorem linkCount_eq (entities : List EntityRecord) :
    linkCount entities = changedParents entities (link entities) := by
  rw [changedParents, parents_link, ← List.map_prod_left_eq_zip, List.countP_map]
  refine List.countP_congr fun parent _ => ?_
  simp [ne_comm]

/-- Linking changes no name, so linked siblings are found like those before. -/
theorem linkedName_link (entities : List EntityRecord) :
    linkedName (link entities) = linkedName entities := by
  funext parent
  have find : ((link entities).find? fun entity => entity.localName = parent) =
      (entities.find? fun entity => entity.localName = parent).map (linkParents entities) := by
    rw [link, List.find?_map]
    rfl
  rw [linkedName, find, linkedName]
  cases entities.find? fun entity => entity.localName = parent <;> rfl

section

variable {moduleName : String} {entities : List EntityRecord}

theorem entityLinked_linkParents (one : OfOneModule moduleName entities) (entity : EntityRecord) :
    EntityLinked entities entity (linkParents entities entity) := by
  refine .parents ?_
  rw [List.forall₂_map_right_iff, List.forall₂_same]
  exact fun parent _ => parentLinked_linkedName one parent

theorem link_link (one : OfOneModule moduleName entities) :
    link (link entities) = link entities := by
  have twice : ∀ entity, linkParents entities (linkParents entities entity) =
      linkParents entities entity := by
    intro entity
    simp only [linkParents, List.map_map, Function.comp_def, linkedName_linkedName one]
  have same : linkParents (link entities) = linkParents entities := by
    funext entity
    rw [linkParents, linkedName_link, linkParents]
  rw [link, same, link, List.map_map]
  exact List.map_congr_left fun entity _ => twice entity

theorem linkCount_link (one : OfOneModule moduleName entities) : linkCount (link entities) = 0 := by
  refine List.countP_eq_zero.2 fun parent listed => ?_
  change parent ∈ parents (link entities) at listed
  rw [parents_link] at listed
  obtain ⟨written, _, rfl⟩ := List.mem_map.1 listed
  simpa [linkedName_link] using linkedName_linkedName one written

/-- Linking gives every parent that is the local name of a sibling the unique name of that sibling,
and changes nothing else. It counts what it changes, a second time it changes nothing, and every
entity comes out the same in whatever order the entities are listed. -/
theorem link_settles_in_any_order (one : OfOneModule moduleName entities) :
    List.Forall₂ (EntityLinked entities) entities (link entities) ∧
      linkCount entities = changedParents entities (link entities) ∧
      link (link entities) = link entities ∧ linkCount (link entities) = 0 ∧
      ∀ reordered : List EntityRecord, reordered.Perm entities →
        ∀ (place other : Nat) (entity : EntityRecord),
          entities[place]? = some entity → reordered[other]? = some entity →
            (link reordered)[other]? = (link entities)[place]? := by
  refine ⟨?exact, linkCount_eq entities, link_link one, linkCount_link one, ?order⟩
  case exact =>
    rw [link, List.forall₂_map_right_iff, List.forall₂_same]
    exact fun entity _ => entityLinked_linkParents one entity
  case order =>
    intro reordered perm place other entity atPlace atOther
    have same : linkParents reordered entity = linkParents entities entity := by
      rw [linkParents, linkedName_perm one perm, linkParents]
    rw [link, link, List.getElem?_map, List.getElem?_map, atPlace, atOther, Option.map_some,
      Option.map_some, same]

end

/-- A class of the module that the examples are about. -/
def classOf (localName : String) (inheritance : List String) : EntityRecord where
  localName := localName
  moduleName := "Machine"
  uniqueName := uniqueName "Machine" localName
  inheritance := inheritance
  dependencies := []
  fileKey := "game/machine.gd"
  language := .script
  tokens := []

/-- Two classes that inherit from siblings, and one that does not. -/
def machineClasses : List EntityRecord :=
  [classOf "State" ["RefCounted"], classOf "Idle" ["State"], classOf "Run" ["Idle"]]

theorem link_settles_in_any_order_machine :
    OfOneModule "Machine" machineClasses ∧
      List.Forall₂ (EntityLinked machineClasses) machineClasses (link machineClasses) ∧
      linkCount machineClasses = changedParents machineClasses (link machineClasses) ∧
      link (link machineClasses) = link machineClasses ∧ linkCount (link machineClasses) = 0 ∧
      ∀ reordered : List EntityRecord, reordered.Perm machineClasses →
        ∀ (place other : Nat) (entity : EntityRecord),
          machineClasses[place]? = some entity → reordered[other]? = some entity →
            (link reordered)[other]? = (link machineClasses)[place]? := by
  have one : OfOneModule "Machine" machineClasses := by
    refine ⟨by decide, ?_, by decide⟩
    unfold Dotless
    decide
  exact ⟨one, link_settles_in_any_order one⟩

example : linkCount machineClasses = 2 ∧ parents (link machineClasses) =
    ["RefCounted", "Machine.State", "Machine.Idle"] := by
  decide

end Sibling

end GodotGraph
