import GodotGraph.Proofs.Analysis.Declarations

/-!
Contract: the order in which a run is given its sources.

Owns:
- the condition under which no record of the first phase takes the place of another;
- runs over the same sources in another order.

Does not own: the order in which the sources are read once a run is under way.
-/

set_option autoImplicit false

namespace GodotGraph.Analysis

/-! ## Names of the first phase -/

/-- The class that a source declares for itself, if it is a script with a name. -/
def className? (source : SourceFile) : Option String :=
  match source.language? with
  | some .script => (Script.preamble (Token.ofSource source.text)).1.className
  | _ => none

/-- The names of the entities that the first phase records for an extraction. -/
def ownNames (extraction : Extraction) : List String :=
  extraction.entities.map fun entity => entity.uniqueName

theorem flatMap_ownNames_extract? (analysis : Analysis) (source : SourceFile) :
    (analysis.extract? source).toList.flatMap ownNames = (className? source).toList := by
  unfold extract? className?
  cases source.language? with
  | none => rfl
  | some kind =>
      cases kind with
      | script =>
          simp only [Option.toList_some, List.flatMap_singleton]
          rw [ownNames, Script.entities_extract, List.map_map]
          exact List.map_id _
      | scene =>
          dsimp only
          split
          · simp only [Option.toList_some, List.flatMap_singleton]
            rw [ownNames, Scene.entities_extract]
            rfl
          · rfl

/-- The first phase records the entities of scripts with names, and no others. -/
theorem flatMap_ownNames (analysis : Analysis) (sources : List SourceFile) :
    (sources.filterMap analysis.extract?).flatMap ownNames = sources.filterMap className? := by
  rw [List.filterMap_eq_flatMap_toList, List.flatMap_assoc]
  simp only [flatMap_ownNames_extract?]
  rw [← List.filterMap_eq_flatMap_toList]

/-! ## The table of the first phase -/

theorem map_key_recordsOf (extraction : Extraction) :
    (recordsOf extraction).map Record.key = [extraction.file.key] ++ ownNames extraction := by
  rw [recordsOf, List.map_cons, List.map_map]
  rfl

/-- No two records of the first phase share a key: keys of files have a dot in them, and names
of scripts have none. -/
theorem nodup_keys_recordsOf {extractions : List Extraction} (sound : Sound extractions)
    (names : (extractions.flatMap ownNames).Nodup) :
    ((extractions.flatMap recordsOf).map Record.key).Nodup := by
  have apart : ∀ key ∈ extractions.flatMap (fun extraction => [extraction.file.key]),
      ∀ name ∈ extractions.flatMap ownNames, key ≠ name := by
    intro key isKey name isName same
    obtain ⟨extraction, member, keyIn⟩ := List.mem_flatMap.1 isKey
    obtain ⟨other, otherIn, nameIn⟩ := List.mem_flatMap.1 isName
    obtain ⟨entity, entityIn, isEntity⟩ := List.mem_map.1 nameIn
    obtain rfl := List.mem_singleton.1 keyIn
    have dotted := sound.dotted extraction member
    rw [same, ← isEntity] at dotted
    exact sound.dotless other otherIn entity entityIn dotted
  have files : (extractions.flatMap fun extraction => [extraction.file.key]).Nodup := by
    rw [← List.map_eq_flatMap]
    exact sound.distinct
  have perm := List.flatMap_append_perm extractions
    (fun extraction => [extraction.file.key]) ownNames
  rw [List.map_flatMap]
  simp only [map_key_recordsOf]
  exact perm.nodup_iff.1 (List.nodup_append.2 ⟨files, names, apart⟩)

/-- The first phase builds the same table in whatever order the extractions come. -/
theorem fileTable_perm {shuffled extractions : List Extraction} (perm : shuffled.Perm extractions)
    (sound : Sound extractions) (names : (extractions.flatMap ownNames).Nodup) :
    fileTable shuffled = fileTable extractions := by
  rw [fileTable_eq, fileTable_eq]
  exact RecordTable.insertAll_empty_perm (perm.flatMap_right recordsOf)
    (nodup_keys_recordsOf sound names)

theorem fileTable_sources_perm (analysis : Analysis) {shuffled sources : List SourceFile}
    (keys : (sources.map analysis.keyFor).Nodup) (names : (sources.filterMap className?).Nodup)
    (perm : shuffled.Perm sources) :
    fileTable (shuffled.filterMap analysis.extract?) =
      fileTable (sources.filterMap analysis.extract?) := by
  have ownNamesApart : ((sources.filterMap analysis.extract?).flatMap ownNames).Nodup := by
    rw [flatMap_ownNames]
    exact names
  exact fileTable_perm (perm.filterMap analysis.extract?) (sound_of_distinct keys) ownNamesApart

end GodotGraph.Analysis
