import GodotGraph.Record

/-!
Contract: parents that are classes of the same script.

Owns: replacing the local name of a sibling in an inheritance list by its unique
name. The first entity with a local name is the one meant.
-/

set_option autoImplicit false

namespace GodotGraph.Sibling

/-- The unique name of the first sibling with a local name, or the name as it is. -/
def linkedName (siblings : List EntityRecord) (parent : String) : String :=
  match siblings.find? fun entity => entity.localName = parent with
  | some entity => entity.uniqueName
  | none => parent

def linkParents (siblings : List EntityRecord) (entity : EntityRecord) : EntityRecord :=
  { entity with inheritance := entity.inheritance.map (linkedName siblings) }

def link (entities : List EntityRecord) : List EntityRecord :=
  entities.map (linkParents entities)

/-- The number of parents that linking changes. -/
def linkCount (entities : List EntityRecord) : Nat :=
  (entities.flatMap fun entity => entity.inheritance).countP
    fun parent => linkedName entities parent ≠ parent

end GodotGraph.Sibling
