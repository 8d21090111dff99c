import GodotGraph.Record.Table
import Mathlib.Data.List.Nodup
import Mathlib.Data.List.Pairwise
import Mathlib.Data.List.Perm.Basic

/-!
Contract: what a table of records answers.

Owns:
- looking up as membership, since no two records share a key;
- files and entities as views of the records;
- looking up after new dependencies, after one insertion and after many;
- insertions whose order makes no difference.

Does not own: which records an analysis inserts.
-/

set_option autoImplicit false

namespace GodotGraph.RecordTable

/-! ## Looking up -/

theorem eq_of_key_eq {table : RecordTable} {left right : Record}
    (leftIn : left ∈ table.records) (rightIn : right ∈ table.records)
    (same : left.key = right.key) : left = right := by
  have apart : table.records.Pairwise fun first second => first.key ≠ second.key :=
    table.ascending.imp fun before => Std.ne_of_lt before
  have symmetric : Std.Symm fun first second : Record => first.key ≠ second.key :=
    ⟨fun _ _ unequal => unequal.symm⟩
  by_contra different
  exact apart.forall leftIn rightIn different same

/-- A record is found under a key exactly if it is in the table and has the key. -/
theorem get?_eq_some_iff {table : RecordTable} {key : String} {record : Record} :
    table.get? key = some record ↔ record ∈ table.records ∧ record.key = key := by
  constructor
  · exact key_of_get?
  · rintro ⟨member, rfl⟩
    cases found : table.get? record.key with
    | none =>
        have absent := List.find?_eq_none.1 found record member
        simp at absent
    | some other =>
        obtain ⟨otherIn, otherKey⟩ := key_of_get? found
        rw [eq_of_key_eq otherIn member otherKey]

theorem file?_eq_some_iff {table : RecordTable} {key : String} {file : FileRecord} :
    table.file? key = some file ↔ .file file ∈ table.records ∧ file.key = key := by
  unfold file?
  rw [Option.bind_eq_some_iff]
  constructor
  · rintro ⟨record, found, isFile⟩
    cases record with
    | file stored =>
        obtain rfl : stored = file := by simpa [Record.file?] using isFile
        exact get?_eq_some_iff.1 found
    | entity stored => simp [Record.file?] at isFile
  · intro stored
    exact ⟨.file file, get?_eq_some_iff.2 stored, rfl⟩

theorem entity?_eq_some_iff {table : RecordTable} {key : String} {entity : EntityRecord} :
    table.entity? key = some entity ↔ .entity entity ∈ table.records ∧ entity.uniqueName = key := by
  unfold entity?
  rw [Option.bind_eq_some_iff]
  constructor
  · rintro ⟨record, found, isEntity⟩
    cases record with
    | file stored => simp [Record.entity?] at isEntity
    | entity stored =>
        obtain rfl : stored = entity := by simpa [Record.entity?] using isEntity
        exact get?_eq_some_iff.1 found
  · intro stored
    exact ⟨.entity entity, get?_eq_some_iff.2 stored, rfl⟩

/-! ## Files -/

theorem mem_files {table : RecordTable} {file : FileRecord} :
    file ∈ table.files ↔ .file file ∈ table.records := by
  unfold files
  rw [List.mem_filterMap]
  constructor
  · rintro ⟨record, member, isFile⟩
    cases record with
    | file stored =>
        obtain rfl : stored = file := by simpa [Record.file?] using isFile
        exact member
    | entity stored => simp [Record.file?] at isFile
  · intro member
    exact ⟨.file file, member, rfl⟩

theorem fileKeys_eq (table : RecordTable) :
    table.fileKeys = (table.records.filter Record.isFile).map Record.key := by
  unfold fileKeys files
  induction table.records with
  | nil => rfl
  | cons record others inductionHypothesis =>
      cases record with
      | file stored => exact congrArg (stored.key :: ·) inductionHypothesis
      | entity stored => exact inductionHypothesis

theorem pairwise_fileKeys (table : RecordTable) : table.fileKeys.Pairwise (· < ·) := by
  rw [fileKeys_eq, List.pairwise_map]
  exact table.ascending.filter _

/-! ## Entities -/

theorem mem_entities {table : RecordTable} {entity : EntityRecord} :
    entity ∈ table.entities ↔ table.entity? entity.uniqueName = some entity := by
  rw [entity?_eq_some_iff, entities, List.mem_filterMap]
  constructor
  · rintro ⟨record, member, isEntity⟩
    cases record with
    | file stored => simp [Record.entity?] at isEntity
    | entity stored =>
        obtain rfl : stored = entity := by simpa [Record.entity?] using isEntity
        exact ⟨member, rfl⟩
  · rintro ⟨member, _⟩
    exact ⟨.entity entity, member, rfl⟩

theorem entityKeys_eq (table : RecordTable) :
    table.entityKeys = (table.records.filter fun record => !record.isFile).map Record.key := by
  unfold entityKeys entities
  induction table.records with
  | nil => rfl
  | cons record others inductionHypothesis =>
      cases record with
      | file stored => exact inductionHypothesis
      | entity stored => exact congrArg (stored.uniqueName :: ·) inductionHypothesis

theorem pairwise_entityKeys (table : RecordTable) : table.entityKeys.Pairwise (· < ·) := by
  rw [entityKeys_eq, List.pairwise_map]
  exact table.ascending.filter _

/-- Every key is one of a file or one of an entity. -/
theorem fileKeys_append_entityKeys_perm (table : RecordTable) :
    (table.fileKeys ++ table.entityKeys).Perm (table.records.map Record.key) := by
  rw [fileKeys_eq, entityKeys_eq, ← List.map_append]
  exact (List.filter_append_perm Record.isFile table.records).map Record.key

theorem nodup_keys (table : RecordTable) : (table.records.map Record.key).Nodup :=
  List.pairwise_map.2 (table.ascending.imp fun before => Std.ne_of_lt before)

theorem disjoint_fileKeys_entityKeys (table : RecordTable) :
    table.fileKeys.Disjoint table.entityKeys :=
  (List.nodup_append'.1
    (table.fileKeys_append_entityKeys_perm.nodup_iff.2 table.nodup_keys)).2.2

/-! ## New dependencies -/

theorem files_mapFiles (table : RecordTable) (next : FileRecord → List String) :
    (table.mapFiles next).files =
      table.files.map fun file => { file with dependencies := next file } := by
  unfold files mapFiles
  rw [List.filterMap_map, List.map_filterMap]
  refine List.filterMap_congr fun record _ => ?_
  cases record <;> rfl

theorem entities_mapFiles (table : RecordTable) (next : FileRecord → List String) :
    (table.mapFiles next).entities = table.entities := by
  unfold entities mapFiles
  rw [List.filterMap_map]
  refine List.filterMap_congr fun record _ => ?_
  cases record <;> rfl

theorem files_mapEntities (table : RecordTable) (next : EntityRecord → List String) :
    (table.mapEntities next).files = table.files := by
  unfold files mapEntities
  rw [List.filterMap_map]
  refine List.filterMap_congr fun record _ => ?_
  cases record <;> rfl

theorem entities_mapEntities (table : RecordTable) (next : EntityRecord → List String) :
    (table.mapEntities next).entities =
      table.entities.map fun entity => { entity with dependencies := next entity } := by
  unfold entities mapEntities
  rw [List.filterMap_map, List.map_filterMap]
  refine List.filterMap_congr fun record _ => ?_
  cases record <;> rfl

theorem get?_mapFiles (table : RecordTable) (next : FileRecord → List String) (key : String) :
    (table.mapFiles next).get? key = (table.get? key).map (redirectFile next) := by
  have keeps : ∀ record, (redirectFile next record).key = record.key := by
    intro record
    cases record <;> rfl
  simp only [get?, mapFiles, List.find?_map, Function.comp_def, keeps]

/-- Redirecting files changes their dependencies only. -/
theorem file?_mapFiles (table : RecordTable) (next : FileRecord → List String) (key : String) :
    (table.mapFiles next).file? key =
      (table.file? key).map fun file => { file with dependencies := next file } := by
  unfold file?
  rw [get?_mapFiles]
  cases table.get? key with
  | none => rfl
  | some record => cases record <;> rfl

theorem get?_mapEntities (table : RecordTable) (next : EntityRecord → List String)
    (key : String) : (table.mapEntities next).get? key = (table.get? key).map (redirectEntity next) := by
  have keeps : ∀ record, (redirectEntity next record).key = record.key := by
    intro record
    cases record <;> rfl
  simp only [get?, mapEntities, List.find?_map, Function.comp_def, keeps]

theorem entity?_mapFiles (table : RecordTable) (next : FileRecord → List String) (key : String) :
    (table.mapFiles next).entity? key = table.entity? key := by
  unfold entity?
  rw [get?_mapFiles]
  cases table.get? key with
  | none => rfl
  | some record => cases record <;> rfl

/-- Redirecting entities changes their dependencies only. -/
theorem entity?_mapEntities (table : RecordTable) (next : EntityRecord → List String)
    (key : String) :
    (table.mapEntities next).entity? key =
      (table.entity? key).map fun entity => { entity with dependencies := next entity } := by
  unfold entity?
  rw [get?_mapEntities]
  cases table.get? key with
  | none => rfl
  | some record => cases record <;> rfl

/-! ## Inserting -/

theorem key_ne_of_below {key : String} {records : List Record}
    (below : ∀ inside ∈ records, key < inside.key) : ∀ inside ∈ records, inside.key ≠ key := by
  intro inside member same
  have above := below inside member
  rw [same] at above
  exact String.lt_irrefl _ above

/-- Placing a record drops nothing but a record with the same key. -/
theorem mem_place {record other : Record} {records : List Record}
    (ascending : records.Pairwise Record.Before) :
    other ∈ place record records ↔
      other = record ∨ other ∈ records ∧ other.key ≠ record.key := by
  induction records with
  | nil => simp [place]
  | cons head rest inductionHypothesis =>
      obtain ⟨first, others⟩ := List.pairwise_cons.1 ascending
      unfold place
      by_cases before : record.key < head.key
      · have below : ∀ inside ∈ head :: rest, record.key < inside.key := by
          intro inside member
          rcases List.mem_cons.1 member with rfl | inRest
          · exact before
          · exact String.lt_trans before (first inside inRest)
        rw [if_pos before, List.mem_cons]
        exact or_congr_right ⟨fun member => ⟨member, key_ne_of_below below other member⟩, And.left⟩
      · by_cases same : record.key = head.key
        · have apart : ∀ inside ∈ rest, inside.key ≠ record.key := by
            rw [same]
            exact key_ne_of_below first
          rw [if_neg before, if_pos same, List.mem_cons, List.mem_cons]
          refine or_congr_right ⟨fun member => ⟨Or.inr member, apart other member⟩, ?_⟩
          rintro ⟨rfl | member, different⟩
          · exact absurd same.symm different
          · exact member
        · rw [if_neg before, if_neg same, List.mem_cons, List.mem_cons, inductionHypothesis others]
          constructor
          · rintro (rfl | rfl | ⟨member, different⟩)
            · exact Or.inr ⟨Or.inl rfl, fun equal => same equal.symm⟩
            · exact Or.inl rfl
            · exact Or.inr ⟨Or.inr member, different⟩
          · rintro (rfl | ⟨rfl | member, different⟩)
            · exact Or.inr (Or.inl rfl)
            · exact Or.inl rfl
            · exact Or.inr (Or.inr ⟨member, different⟩)

/-- An accepted record is found under its key, and all others where they were. -/
theorem get?_insert_of_accepts {table : RecordTable} {record : Record}
    (accepted : table.accepts record = true) (key : String) :
    (table.insert record).get? key = if record.key = key then some record else table.get? key := by
  have records : (table.insert record).records = place record table.records := by
    rw [insert, if_pos accepted]
  by_cases same : record.key = key
  · rw [if_pos same, get?_eq_some_iff, records, mem_place table.ascending]
    exact ⟨Or.inl rfl, same⟩
  · rw [if_neg same]
    refine Option.ext fun found => ?_
    rw [get?_eq_some_iff, get?_eq_some_iff, records, mem_place table.ascending]
    constructor
    · rintro ⟨rfl | ⟨member, _⟩, named⟩
      · exact absurd named same
      · exact ⟨member, named⟩
    · rintro ⟨member, named⟩
      exact ⟨Or.inr ⟨member, fun equal => same (equal.symm.trans named)⟩, named⟩

theorem get?_insert_of_ne {table : RecordTable} {record : Record} {key : String}
    (other : record.key ≠ key) : (table.insert record).get? key = table.get? key := by
  cases accepted : table.accepts record with
  | true => rw [get?_insert_of_accepts accepted, if_neg other]
  | false => rw [insert_of_not_accepts accepted]

theorem accepts_of_isFile_eq {table : RecordTable} {record : Record}
    (alike : ∀ held, table.get? record.key = some held → held.isFile = record.isFile) :
    table.accepts record = true := by
  rw [accepts]
  cases found : table.get? record.key with
  | none => rfl
  | some held => simp [alike held found]

/-- The table with some records inserted one after the other. -/
def insertAll (table : RecordTable) (records : List Record) : RecordTable :=
  records.foldl insert table

theorem insertAll_append (table : RecordTable) (first rest : List Record) :
    table.insertAll (first ++ rest) = (table.insertAll first).insertAll rest :=
  List.foldl_append

theorem mem_of_mem_insertAll {table : RecordTable} {records : List Record} {record : Record}
    (member : record ∈ (table.insertAll records).records) :
    record ∈ table.records ∨ record ∈ records := by
  induction records generalizing table with
  | nil => exact Or.inl member
  | cons head rest inductionHypothesis =>
      rcases inductionHypothesis member with inTable | inRest
      · cases accepted : table.accepts head with
        | false =>
            rw [insert_of_not_accepts accepted] at inTable
            exact Or.inl inTable
        | true =>
            rw [insert, if_pos accepted] at inTable
            rcases mem_of_mem_place inTable with same | before
            · exact Or.inr (by simp [same])
            · exact Or.inl before
      · exact Or.inr (List.mem_cons_of_mem _ inRest)

/-- A record stays while no other record with its key is inserted. -/
theorem get?_insertAll_of_held {table : RecordTable} {records : List Record} {record : Record}
    (held : table.get? record.key = some record)
    (only : ∀ other ∈ records, other.key = record.key → other = record) :
    (table.insertAll records).get? record.key = some record := by
  induction records generalizing table with
  | nil => exact held
  | cons head rest inductionHypothesis =>
      refine inductionHypothesis ?_ fun other member => only other (List.mem_cons_of_mem _ member)
      by_cases same : head.key = record.key
      · obtain rfl := only head List.mem_cons_self same
        have alike : ∀ found, table.get? head.key = some found → found.isFile = head.isFile := by
          intro found isHeld
          rw [held] at isHeld
          rw [Option.some.inj isHeld]
        rw [get?_insert_of_accepts (accepts_of_isFile_eq alike), if_pos rfl]
      · rw [get?_insert_of_ne same, held]

/-- A record arrives if its key is not held by one of the other kind, and it stays if no other
record has its key. -/
theorem get?_insertAll_of_mem {table : RecordTable} {records : List Record} {record : Record}
    (member : record ∈ records)
    (only : ∀ other ∈ records, other.key = record.key → other = record)
    (alike : ∀ held, table.get? record.key = some held → held.isFile = record.isFile) :
    (table.insertAll records).get? record.key = some record := by
  induction records generalizing table with
  | nil => simp at member
  | cons head rest inductionHypothesis =>
      have onlyRest : ∀ other ∈ rest, other.key = record.key → other = record :=
        fun other inRest => only other (List.mem_cons_of_mem _ inRest)
      by_cases same : head.key = record.key
      · obtain rfl := only head List.mem_cons_self same
        have arrived : (table.insert head).get? head.key = some head := by
          rw [get?_insert_of_accepts (accepts_of_isFile_eq alike), if_pos rfl]
        show ((table.insert head).insertAll rest).get? head.key = some head
        exact get?_insertAll_of_held arrived onlyRest
      · have inRest : record ∈ rest := by
          rcases List.mem_cons.1 member with rfl | inside
          · exact absurd rfl same
          · exact inside
        refine inductionHypothesis inRest onlyRest fun held found => ?_
        rw [get?_insert_of_ne same] at found
        exact alike held found

/-- Records with keys of their own all arrive in an empty table. -/
theorem mem_insertAll_empty {records : List Record} (apart : (records.map Record.key).Nodup)
    {record : Record} : record ∈ (empty.insertAll records).records ↔ record ∈ records := by
  constructor
  · intro stored
    rcases mem_of_mem_insertAll stored with before | inserted
    · simp [empty] at before
    · exact inserted
  · intro member
    have only : ∀ other ∈ records, other.key = record.key → other = record :=
      fun other inRecords same => List.inj_on_of_nodup_map apart inRecords member same
    have found : (empty.insertAll records).get? record.key = some record :=
      get?_insertAll_of_mem member only fun held isHeld => by simp [get?, empty] at isHeld
    exact (get?_eq_some_iff.1 found).1

/-- A table is determined by its records. -/
theorem eq_of_mem_iff {left right : RecordTable}
    (same : ∀ record, record ∈ left.records ↔ record ∈ right.records) : left = right := by
  have distinct : ∀ table : RecordTable, table.records.Nodup := fun table =>
    table.ascending.imp fun before equal => Std.ne_of_lt before (congrArg Record.key equal)
  have perm : left.records.Perm right.records :=
    (List.perm_ext_iff_of_nodup (distinct left) (distinct right)).2 same
  have records : left.records = right.records :=
    perm.eq_of_pairwise
      (fun _ _ _ _ before after => absurd after (String.lt_asymm before))
      left.ascending right.ascending
  cases left
  cases right
  congr

/-- Records with keys of their own may be inserted in any order. -/
theorem insertAll_empty_perm {first second : List Record} (perm : first.Perm second)
    (apart : (second.map Record.key).Nodup) : empty.insertAll first = empty.insertAll second := by
  have apartFirst : (first.map Record.key).Nodup := (perm.map Record.key).nodup_iff.2 apart
  refine eq_of_mem_iff fun record => ?_
  rw [mem_insertAll_empty apartFirst, mem_insertAll_empty apart]
  exact perm.mem_iff

/-- Entities never change a file. -/
theorem file?_insertAll_of_entities {records : List Record}
    (entities : ∀ record ∈ records, record.isFile = false) (table : RecordTable) (key : String) :
    (table.insertAll records).file? key = table.file? key := by
  induction records generalizing table with
  | nil => rfl
  | cons head rest inductionHypothesis =>
      have isEntity := entities head List.mem_cons_self
      have later := inductionHypothesis
        (fun record member => entities record (List.mem_cons_of_mem _ member)) (table.insert head)
      refine later.trans ?_
      cases accepted : table.accepts head with
      | false => rw [insert_of_not_accepts accepted]
      | true =>
          rw [file?, file?, get?_insert_of_accepts accepted]
          by_cases same : head.key = key
          · rw [accepts, same] at accepted
            cases head with
            | file stored => simp [Record.isFile] at isEntity
            | entity stored =>
                cases found : table.get? key with
                | none => simp [same, Record.file?]
                | some held =>
                    rw [found] at accepted
                    cases held with
                    | file other => simp [Record.isFile] at accepted
                    | entity other => simp [same, Record.file?]
          · rw [if_neg same]

end GodotGraph.RecordTable
