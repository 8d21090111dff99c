import GodotGraph.Proofs.Key.Confinement

/-!
Contract: the normal form of a path.

Owns:
- paths of names alone, which are their own normal form;
- when a path has a normal form, and the names that it is made of;
- normal forms found step by step, from the normal form of a directory.

Does not own: the project root. A normal form may lie anywhere below the start of its path.

A walk goes on from the names that it has come to, and a path of names leads a walk back to
these names. So nothing is lost when a walk is cut in two and its first half is written down.
-/

set_option autoImplicit false

namespace GodotGraph.Key

open GodotGraph.Path (IsName)
open Text (segments joinSegments)

/-! ## Paths of names -/

/-- A path of names alone, with one slash between any two. The empty path has none. -/
def IsNormal (path : String) : Prop :=
  path = "" ∨ ∀ segment ∈ segments path, IsName segment

instance (path : String) : Decidable (IsNormal path) :=
  inferInstanceAs (Decidable (_ ∨ _))

theorem isNormal_joinSegments {names : List String} (areNames : ∀ name ∈ names, IsName name) :
    IsNormal (joinSegments names) := by
  by_cases filled : names = []
  · subst filled
    exact Or.inl rfl
  · refine Or.inr ?_
    rw [Text.segments_joinSegments filled fun name member => (areNames name member).clean]
    exact areNames

theorem exists_names_of_isNormal {path : String} (normal : IsNormal path) :
    ∃ names, (∀ name ∈ names, IsName name) ∧ joinSegments names = path := by
  rcases normal with rfl | areNames
  · exact ⟨[], List.forall_mem_nil _, rfl⟩
  · exact ⟨segments path, areNames, Text.joinSegments_segments path⟩

/-- A path of names leads back to them. -/
theorem walk_segments_joinSegments {names : List String} (areNames : ∀ name ∈ names, IsName name) :
    walk [] (segments (joinSegments names)) = some names := by
  by_cases filled : names = []
  · subst filled
    rfl
  · rw [Text.segments_joinSegments filled fun name member => (areNames name member).clean]
    exact walk_of_collapsesTo (.names areNames)

/-! ## Normal forms -/

theorem normalize?_eq_none_iff (path : String) :
    normalize? path = none ↔ ClimbsOut (segments path) := by
  rw [normalize?, Option.map_eq_none_iff, climbsOut_iff]

theorem normalize?_eq_some_iff (path key : String) :
    normalize? path = some key ↔
      ∃ names, CollapsesTo (segments path) names ∧ joinSegments names = key := by
  rw [normalize?, Option.map_eq_some_iff]
  simp only [collapsesTo_segments_iff]

/-- A path of names alone is its own normal form, and there is no other such path. -/
theorem normalize?_eq_self_iff (path : String) : normalize? path = some path ↔ IsNormal path := by
  constructor
  · intro stays
    obtain ⟨names, collapses, written⟩ := (normalize?_eq_some_iff path path).1 stays
    rw [← written]
    exact isNormal_joinSegments (isName_of_collapsesTo collapses)
  · intro normal
    obtain ⟨names, areNames, rfl⟩ := exists_names_of_isNormal normal
    rw [normalize?, walk_segments_joinSegments areNames]
    rfl

/-- What is found from a directory is found from its normal form. -/
theorem normalize?_below (path rest : String) :
    normalize? (path ++ "/" ++ rest) =
      (normalize? path).bind fun key => normalize? (key ++ "/" ++ rest) := by
  have below : ∀ directory, normalize? (directory ++ "/" ++ rest) =
      ((walk [] (segments directory)).bind fun names =>
        walk names.reverse (segments rest)).map joinSegments := by
    intro directory
    rw [normalize?, Text.segments_append_slash, walk_append]
  rw [below path, normalize?]
  cases walked : walk [] (segments path) with
  | none => rfl
  | some names =>
      have areNames := isName_of_collapsesTo ((collapsesTo_segments_iff path names).2 walked)
      rw [Option.map_some, Option.bind_some, Option.bind_some, below,
        walk_segments_joinSegments areNames, Option.bind_some]

/-- A reference from a directory is one from the normal form of the directory. -/
theorem ofRelative?_of_normalize? (rootName : String) {directory key : String}
    (found : normalize? directory = some key) (path : String) :
    ofRelative? rootName directory path = ofRelative? rootName key path := by
  have empty : normalize? ("" ++ "/" ++ path) = normalize? path := by
    rw [normalize?, Text.segments_append_slash, Path.segments_empty]
    rfl
  have whole : ∀ start, normalize? (if start = "" then path else start ++ "/" ++ path) =
      normalize? (start ++ "/" ++ path) := by
    intro start
    split
    · next isEmpty => rw [isEmpty, empty]
    · rfl
  have below := normalize?_below directory path
  rw [found, Option.bind_some] at below
  simp only [ofRelative?, whole, below]

/-- What the normal form of a path is: there is none exactly if the path climbs above its start,
and else it has the names that the segments come down to and is its own normal form. -/
structure NormalForm (path : String) (key? : Option String) : Prop where
  missing : key? = none ↔ ClimbsOut (segments path)
  named : ∀ key, key? = some key →
    ∃ names, CollapsesTo (segments path) names ∧ joinSegments names = key
  normal : ∀ key, key? = some key → IsNormal key
  stays : ∀ key, key? = some key → normalize? key = some key

/-- Paths have normal forms, and a path below a directory has that of the same path below the
normal form of the directory. -/
theorem normal_forms_compose (path rest : String) :
    NormalForm path (normalize? path) ∧
      (∀ key, normalize? path = some key →
        normalize? (path ++ "/" ++ rest) = normalize? (key ++ "/" ++ rest)) ∧
      (normalize? path = none → normalize? (path ++ "/" ++ rest) = none) := by
  have normal : ∀ key, normalize? path = some key → IsNormal key := by
    intro key found
    obtain ⟨names, collapses, rfl⟩ := (normalize?_eq_some_iff path key).1 found
    exact isNormal_joinSegments (isName_of_collapsesTo collapses)
  refine ⟨⟨normalize?_eq_none_iff path, ?named, normal, ?stays⟩, ?found, ?missing⟩
  case named => exact fun key found => (normalize?_eq_some_iff path key).1 found
  case stays => exact fun key found => (normalize?_eq_self_iff key).2 (normal key found)
  case found =>
    intro key found
    rw [normalize?_below, found, Option.bind_some]
  case missing =>
    intro missing
    rw [normalize?_below, missing, Option.bind_none]

example : normalize? "game//ui/./../hud.gd" = some "game/hud.gd" ∧ normalize? "./ui/.." = some "" ∧
    normalize? "ui/../../hud.gd" = none := by
  decide +kernel

end GodotGraph.Key
