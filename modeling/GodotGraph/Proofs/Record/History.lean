import GodotGraph.Analysis
import GodotGraph.Proofs.Record.Table

/-!
Contract: tables over any history of operations.

Owns:
- the operations that a table offers, and the table after a history of them;
- the kind of record that a key holds, which no operation changes;
- the keys of files beside the keys of entities;
- what an insertion changes, be it of a file, of an entity or of any record.

Every operation inserts one record or replaces dependency lists in place. What one operation
keeps follows from these cases, and what a history keeps from that.
-/

set_option autoImplicit false

namespace GodotGraph.RecordTable

/-! ## Operations -/

/-- What may be done to a table. -/
inductive Operation where
  | insertFile (file : FileRecord)
  | insertEntity (entity : EntityRecord)
  /-- One more dependency for the file under a key. -/
  | dependFile (key name : String)
  /-- One more dependency for the entity under a key. -/
  | dependEntity (key name : String)
  /-- Curation of the dependencies of all files. -/
  | curate
  /-- The type usages of the entity under a key, given the known names. -/
  | detectUsages (known : List String) (key : String)
  /-- The type usages of all entities. -/
  | inferUsages

/-- The table with the type usages of the entity under a key. -/
def detectUsages (table : RecordTable) (known : List String) (key : String) : RecordTable :=
  table.mapEntities fun entity =>
    if entity.uniqueName = key then TypeUsage.dependencies known entity else entity.dependencies

/-- The table after an operation. -/
def apply (table : RecordTable) : Operation → RecordTable
  | .insertFile file => table.insertFile file
  | .insertEntity entity => table.insertEntity entity
  | .dependFile key name => table.dependFile key name
  | .dependEntity key name => table.dependEntity key name
  | .curate => Curation.curateTable table
  | .detectUsages known key => table.detectUsages known key
  | .inferUsages => Analysis.inferUsages table

/-- The table after a history of operations on a table. -/
def applyAll (table : RecordTable) (operations : List Operation) : RecordTable :=
  operations.foldl apply table

/-- The table after a history that starts without records. -/
def replay (operations : List Operation) : RecordTable :=
  empty.applyAll operations

theorem applyAll_append (table : RecordTable) (first rest : List Operation) :
    table.applyAll (first ++ rest) = (table.applyAll first).applyAll rest :=
  List.foldl_append

/-- All that an operation can do. -/
theorem apply_cases (table : RecordTable) (operation : Operation) :
    (∃ record, table.apply operation = table.insert record) ∨
      (∃ next, table.apply operation = table.mapFiles next) ∨
        ∃ next, table.apply operation = table.mapEntities next := by
  cases operation with
  | insertFile file => exact Or.inl ⟨.file file, rfl⟩
  | insertEntity entity => exact Or.inl ⟨.entity entity, rfl⟩
  | dependFile key name => exact Or.inr (Or.inl ⟨_, rfl⟩)
  | dependEntity key name => exact Or.inr (Or.inr ⟨_, rfl⟩)
  | curate => exact Or.inr (Or.inl ⟨_, rfl⟩)
  | detectUsages known key => exact Or.inr (Or.inr ⟨_, rfl⟩)
  | inferUsages => exact Or.inr (Or.inr ⟨_, rfl⟩)

/-! ## Kinds of keys -/

/-- Whether the key holds a file, if it holds a record. -/
def kindAt (table : RecordTable) (key : String) : Option Bool :=
  (table.get? key).map Record.isFile

theorem isFile_redirectFile (next : FileRecord → List String) (record : Record) :
    (redirectFile next record).isFile = record.isFile := by
  cases record <;> rfl

theorem isFile_redirectEntity (next : EntityRecord → List String) (record : Record) :
    (redirectEntity next record).isFile = record.isFile := by
  cases record <;> rfl

theorem kindAt_mapFiles (table : RecordTable) (next : FileRecord → List String) (key : String) :
    (table.mapFiles next).kindAt key = table.kindAt key := by
  simp [kindAt, get?_mapFiles, Function.comp_def, isFile_redirectFile]

theorem kindAt_mapEntities (table : RecordTable) (next : EntityRecord → List String)
    (key : String) : (table.mapEntities next).kindAt key = table.kindAt key := by
  simp [kindAt, get?_mapEntities, Function.comp_def, isFile_redirectEntity]

/-- A record is refused exactly by a key that holds the other kind. -/
theorem accepts_eq_false_iff {table : RecordTable} {record : Record} :
    table.accepts record = false ↔
      ∃ held, table.get? record.key = some held ∧ held.isFile ≠ record.isFile := by
  rw [accepts]
  cases table.get? record.key with
  | none => simp
  | some held => simp

/-- An insertion gives a kind to a free key, and leaves all others as they are. -/
theorem kindAt_insert (table : RecordTable) (record : Record) (key : String) :
    (table.insert record).kindAt key =
      if record.key = key then some ((table.kindAt key).getD record.isFile)
      else table.kindAt key := by
  cases accepted : table.accepts record with
  | false =>
      obtain ⟨held, found, _⟩ := accepts_eq_false_iff.1 accepted
      rw [insert_of_not_accepts accepted]
      split
      · next same => simp [kindAt, ← same, found]
      · rfl
  | true =>
      rw [kindAt, get?_insert_of_accepts accepted]
      split
      · next same =>
          rw [accepts, same] at accepted
          cases found : table.get? key with
          | none => simp [kindAt, found]
          | some held =>
              rw [found] at accepted
              simpa [kindAt, found] using (beq_iff_eq.1 accepted).symm
      · rfl

/-- No operation takes a key away or changes its kind. -/
theorem kindAt_apply {table : RecordTable} {key : String} {kind : Bool}
    (held : table.kindAt key = some kind) (operation : Operation) :
    (table.apply operation).kindAt key = some kind := by
  rcases table.apply_cases operation with ⟨record, same⟩ | ⟨next, same⟩ | ⟨next, same⟩
  · rw [same, kindAt_insert, held]
    split <;> rfl
  · rw [same, kindAt_mapFiles, held]
  · rw [same, kindAt_mapEntities, held]

/-- No history takes a key away or changes its kind. -/
theorem kindAt_applyAll {table : RecordTable} {key : String} {kind : Bool}
    (held : table.kindAt key = some kind) (operations : List Operation) :
    (table.applyAll operations).kindAt key = some kind := by
  induction operations generalizing table with
  | nil => exact held
  | cons operation later inductionHypothesis =>
      exact inductionHypothesis (kindAt_apply held operation)

/-! ## Keys of files and of entities -/

theorem kindAt_eq_some_iff {table : RecordTable} {key : String} {kind : Bool} :
    table.kindAt key = some kind ↔
      ∃ record ∈ table.records, record.isFile = kind ∧ record.key = key := by
  simp only [kindAt, Option.map_eq_some_iff, get?_eq_some_iff]
  constructor
  · rintro ⟨record, ⟨member, isKey⟩, isKind⟩
    exact ⟨record, member, isKind, isKey⟩
  · rintro ⟨record, member, isKind, isKey⟩
    exact ⟨record, ⟨member, isKey⟩, isKind⟩

theorem mem_fileKeys_iff_kindAt {table : RecordTable} {key : String} :
    key ∈ table.fileKeys ↔ table.kindAt key = some true := by
  simp [fileKeys_eq, kindAt_eq_some_iff, and_assoc]

/-- Every record stands under its own key, the keys ascend, and they are those of the files and
those of the entities, none of them both. -/
structure WellKeyed (table : RecordTable) : Prop where
  own : ∀ record ∈ table.records, table.get? record.key = some record
  found : ∀ {key record}, table.get? key = some record → record ∈ table.records ∧ record.key = key
  ascending : (table.records.map Record.key).Pairwise (· < ·)
  disjoint : table.fileKeys.Disjoint table.entityKeys
  together : (table.fileKeys ++ table.entityKeys).Perm (table.records.map Record.key)

theorem wellKeyed (table : RecordTable) : WellKeyed table where
  own := fun _ member => get?_eq_some_iff.2 ⟨member, rfl⟩
  found := key_of_get?
  ascending := List.pairwise_map.2 table.ascending
  disjoint := table.disjoint_fileKeys_entityKeys
  together := table.fileKeys_append_entityKeys_perm

/-- What an insertion does to a table. It is refused exactly by a key of the other kind and then
changes nothing. If it is accepted, the record of its key changes and no other. -/
structure Inserted (table : RecordTable) (record : Record) (next : RecordTable) : Prop where
  refused_iff : table.accepts record = false ↔
    ∃ held, table.get? record.key = some held ∧ held.isFile ≠ record.isFile
  unchanged : table.accepts record = false → next = table
  replaced : table.accepts record = true →
    ∀ key, next.get? key = if record.key = key then some record else table.get? key

theorem inserted (table : RecordTable) (record : Record) :
    Inserted table record (table.insert record) where
  refused_iff := accepts_eq_false_iff
  unchanged := insert_of_not_accepts
  replaced := get?_insert_of_accepts

/-- A table has one record for each key and keeps the two kinds apart, whatever is done to it. Keys
stay with their kind under all later operations, and the next insertion of a file or an entity
touches its own key only. -/
theorem replay_keeps_keys (operations : List Operation) :
    (replay operations).WellKeyed ∧
      (∀ (later : List Operation) (key : String) (record : Record),
        (replay operations).get? key = some record →
          ∃ last, (replay (operations ++ later)).get? key = some last ∧
            last.isFile = record.isFile) ∧
      (∀ record : Record,
        Inserted (replay operations) record ((replay operations).insert record)) ∧
      (∀ file : FileRecord,
        Inserted (replay operations) (.file file) ((replay operations).insertFile file)) ∧
      ∀ entity : EntityRecord,
        Inserted (replay operations) (.entity entity) ((replay operations).insertEntity entity) := by
  refine ⟨wellKeyed _, ?stays, inserted _, fun file => inserted _ (.file file),
    fun entity => inserted _ (.entity entity)⟩
  case stays =>
    intro later key record found
    have held : (replay operations).kindAt key = some record.isFile := by rw [kindAt, found]; rfl
    have stays := kindAt_applyAll held later
    rw [replay, ← applyAll_append, kindAt, Option.map_eq_some_iff] at stays
    exact stays

end GodotGraph.RecordTable
