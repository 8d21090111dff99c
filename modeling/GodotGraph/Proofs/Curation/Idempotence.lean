import GodotGraph.Proofs.Curation
import Mathlib.Data.List.Forall2

/-!
Contract: what curation changes, and that it settles at once.

Owns:
- what a single dependency may become;
- records before and after curation: the dependencies of files, and nothing else;
- curation of a table that is curated already.

A key is the least of the keys that contain it, if it was chosen for any dependency at all: each
key that contains it contains the candidate that it was chosen for as well.
-/

set_option autoImplicit false

namespace GodotGraph.Curation

/-! ## One dependency -/

/-- What a dependency becomes: the least known key that contains its candidate, or itself if no
known key does. -/
inductive LeadsTo (known : List String) (language : Language) (written : String) :
    String → Prop where
  | key {key : String} (isKnown : key ∈ known)
      (contains : Text.occursIn (candidate language written).toList key.toList = true)
      (least : ∀ other ∈ known,
        Text.occursIn (candidate language written).toList other.toList = true → key ≤ other) :
      LeadsTo known language written key
  | itself (nowhere : ∀ key ∈ known,
      Text.occursIn (candidate language written).toList key.toList = false) :
      LeadsTo known language written written

section

variable {known : List String}

theorem leadsTo_curate (ascending : known.Pairwise (· < ·)) (language : Language)
    (written : String) : LeadsTo known language written (curate known language written) := by
  rcases curate_cases known language written with found | ⟨unchanged, nowhere⟩
  · obtain ⟨isKnown, contains, least⟩ := (find?_eq_some_iff_least ascending).1 found
    exact .key isKnown contains least
  · rw [unchanged]
    exact .itself nowhere

/-- What a dependency became stays. -/
theorem curate_curate (ascending : known.Pairwise (· < ·))
    (complete : ∀ key ∈ known, namesFile key = true) (language : Language) (written : String) :
    curate known language (curate known language written) = curate known language written := by
  have leads := leadsTo_curate ascending language written
  generalize chosen : curate known language written = target at leads
  cases leads with
  | key isKnown contains least =>
      obtain ⟨againKnown, againContains, againLeast⟩ :=
        curate_known ascending (complete target isKnown) isKnown language
      exact String.le_antisymm (againLeast target isKnown (Text.occursIn_self _))
        (least _ againKnown (Text.occursIn_trans contains againContains))
  | itself nowhere => exact chosen

/-! ## The dependencies of a file -/

theorem firstOccurrences_dependencies (known : List String) (file : FileRecord) :
    FirstOccurrences (file.dependencies.map (curate known file.language))
      (dependencies known file) :=
  firstOccurrences_addAllOnce _

theorem dependencies_curated (ascending : known.Pairwise (· < ·))
    (complete : ∀ key ∈ known, namesFile key = true) (file : FileRecord) :
    dependencies known { file with dependencies := dependencies known file } =
      dependencies known file := by
  have first := firstOccurrences_dependencies known file
  have stays : ∀ name ∈ dependencies known file, curate known file.language name = name := by
    intro name listed
    obtain ⟨written, _, rfl⟩ := mem_dependencies.1 listed
    exact curate_curate ascending complete file.language written
  calc dependencies known { file with dependencies := dependencies known file }
      = addAllOnce [] ((dependencies known file).map (curate known file.language)) := rfl
    _ = addAllOnce [] (dependencies known file) := by rw [List.map_congr_left stays, List.map_id']
    _ = dependencies known file := addAllOnce_of_nodup first.distinct

end

/-! ## The table -/

/-- A record before and after curation. -/
inductive Curated (known : List String) : Record → Record → Prop where
  | file {file : FileRecord} {dependencies : List String}
      (once : FirstOccurrences (file.dependencies.map (curate known file.language)) dependencies)
      (leads : ∀ written ∈ file.dependencies,
        LeadsTo known file.language written (curate known file.language written)) :
      Curated known (.file file) (.file { file with dependencies := dependencies })
  | entity (entity : EntityRecord) : Curated known (.entity entity) (.entity entity)

theorem curated_redirectFile {known : List String} (ascending : known.Pairwise (· < ·))
    (record : Record) :
    Curated known record (RecordTable.redirectFile (dependencies known) record) := by
  cases record with
  | file file =>
      exact .file (firstOccurrences_dependencies known file) fun written _ =>
        leadsTo_curate ascending file.language written
  | entity entity => exact .entity entity

theorem fileKeys_curateTable (table : RecordTable) :
    (curateTable table).fileKeys = table.fileKeys := by
  rw [RecordTable.fileKeys, curateTable, RecordTable.files_mapFiles, List.map_map]
  rfl

theorem curateTable_curateTable {table : RecordTable}
    (complete : ∀ key ∈ table.fileKeys, namesFile key = true) :
    curateTable (curateTable table) = curateTable table := by
  have ascending := RecordTable.pairwise_fileKeys table
  have twice : ∀ record, RecordTable.redirectFile (dependencies table.fileKeys)
      (RecordTable.redirectFile (dependencies table.fileKeys) record) =
        RecordTable.redirectFile (dependencies table.fileKeys) record := by
    intro record
    cases record with
    | file file =>
        simp only [RecordTable.redirectFile, dependencies_curated ascending complete file]
    | entity entity => rfl
  rw [curateTable, fileKeys_curateTable, curateTable]
  simp only [RecordTable.mapFiles, List.map_map, RecordTable.mk.injEq]
  exact List.map_congr_left fun record _ => twice record

/-- Curation replaces the dependencies of each file by what they lead to, each once and in the
order of first occurrence. It changes nothing else, and a second time it changes nothing at all. -/
theorem curateTable_confined_and_idempotent {table : RecordTable}
    (complete : ∀ key ∈ table.fileKeys, namesFile key = true) :
    List.Forall₂ (Curated table.fileKeys) table.records (curateTable table).records ∧
      curateTable (curateTable table) = curateTable table := by
  have ascending := RecordTable.pairwise_fileKeys table
  refine ⟨?_, curateTable_curateTable complete⟩
  show List.Forall₂ _ table.records
    (table.records.map (RecordTable.redirectFile (dependencies table.fileKeys)))
  rw [List.forall₂_map_right_iff, List.forall₂_same]
  exact fun record _ => curated_redirectFile ascending record

/-- A project in which two ways of writing lead to one file, and one name to no file. -/
def themedProject : RecordTable :=
  (RecordTable.empty.insertFile
    (scriptAt "game/ui/hud.gd" ["ui.theme", "game/ui/theme.gd", "Control"])).insertFile
      (scriptAt "game/ui/theme.gd" [])

theorem curateTable_confined_and_idempotent_themed :
    (∀ key ∈ themedProject.fileKeys, namesFile key = true) ∧
      List.Forall₂ (Curated themedProject.fileKeys) themedProject.records
        (curateTable themedProject).records ∧
      curateTable (curateTable themedProject) = curateTable themedProject := by
  have complete : ∀ key ∈ themedProject.fileKeys, namesFile key = true := by decide +kernel
  exact ⟨complete, curateTable_confined_and_idempotent complete⟩

example : ((curateTable themedProject).file? "game/ui/hud.gd").map FileRecord.dependencies =
    some ["game/ui/theme.gd", "Control"] := by
  decide +kernel

end GodotGraph.Curation
