import GodotGraph.Record

/-!
Contract: the table of all records of one analysis.

Owns:
- records in ascending order of their keys, one for each key;
- inserting, which never lets a record of one kind replace one of the other;
- looking records up, and replacing their dependency lists in place.

Does not own: which records belong into a table.
-/

set_option autoImplicit false

namespace GodotGraph

/-- Earlier keys come first. -/
def Record.Before (left right : Record) : Prop := left.key < right.key

/-- Records in strictly ascending order of their keys. -/
structure RecordTable where
  records : List Record
  ascending : records.Pairwise Record.Before
  deriving DecidableEq, Repr

namespace RecordTable

def empty : RecordTable := ⟨[], List.Pairwise.nil⟩

/-! ## Looking up -/

def get? (table : RecordTable) (key : String) : Option Record :=
  table.records.find? fun record => record.key = key

def contains (table : RecordTable) (key : String) : Bool :=
  (table.get? key).isSome

def file? (table : RecordTable) (key : String) : Option FileRecord :=
  (table.get? key).bind Record.file?

def entity? (table : RecordTable) (key : String) : Option EntityRecord :=
  (table.get? key).bind Record.entity?

def files (table : RecordTable) : List FileRecord :=
  table.records.filterMap Record.file?

def entities (table : RecordTable) : List EntityRecord :=
  table.records.filterMap Record.entity?

def fileKeys (table : RecordTable) : List String :=
  table.files.map fun file => file.key

def entityKeys (table : RecordTable) : List String :=
  table.entities.map fun entity => entity.uniqueName

def size (table : RecordTable) : Nat := table.records.length

/-! ## Inserting -/

/-- Puts a record at its place, over one with the same key. -/
def place (record : Record) : List Record → List Record
  | [] => [record]
  | head :: rest =>
      if record.key < head.key then record :: head :: rest
      else if record.key = head.key then record :: rest
      else head :: place record rest

/-- Placing a record brings in nothing but that record. -/
theorem mem_of_mem_place {record other : Record} {records : List Record}
    (member : other ∈ place record records) : other = record ∨ other ∈ records := by
  induction records with
  | nil => simpa [place] using member
  | cons head rest inductionHypothesis =>
      unfold place at member
      split at member
      · simpa using member
      · split at member
        · rcases List.mem_cons.1 member with same | inside
          · exact Or.inl same
          · exact Or.inr (List.mem_cons_of_mem _ inside)
        · rcases List.mem_cons.1 member with same | inside
          · exact Or.inr (by simp [same])
          · rcases inductionHypothesis inside with same | inside
            · exact Or.inl same
            · exact Or.inr (List.mem_cons_of_mem _ inside)

/-- Placing a record keeps the order. -/
theorem pairwise_place (record : Record) {records : List Record}
    (ascending : records.Pairwise Record.Before) :
    (place record records).Pairwise Record.Before := by
  induction records with
  | nil => simp [place]
  | cons head rest inductionHypothesis =>
      have ⟨first, others⟩ := List.pairwise_cons.1 ascending
      unfold place
      split
      · next before =>
          refine List.pairwise_cons.2 ⟨?_, ascending⟩
          intro other member
          rcases List.mem_cons.1 member with same | inside
          · exact same ▸ before
          · exact String.lt_trans before (first other inside)
      · split
        · next same =>
            refine List.pairwise_cons.2 ⟨?_, others⟩
            intro other member
            show record.key < other.key
            exact same ▸ first other member
        · next notBefore different =>
            refine List.pairwise_cons.2 ⟨?_, inductionHypothesis others⟩
            intro other member
            rcases mem_of_mem_place member with same | inside
            · rw [same]
              exact Std.lt_of_le_of_ne (String.not_lt.1 notBefore) (Ne.symm different)
            · exact first other inside

/-- The key is free or holds a record of the same kind. -/
def accepts (table : RecordTable) (record : Record) : Bool :=
  match table.get? record.key with
  | some held => held.isFile == record.isFile
  | none => true

/-- The table with the record in it, if it accepts the record. -/
def insert (table : RecordTable) (record : Record) : RecordTable :=
  if table.accepts record then
    ⟨place record table.records, pairwise_place record table.ascending⟩
  else table

def insertFile (table : RecordTable) (file : FileRecord) : RecordTable :=
  table.insert (.file file)

def insertEntity (table : RecordTable) (entity : EntityRecord) : RecordTable :=
  table.insert (.entity entity)

/-! ## Replacing dependencies -/

/-- Keys that stay in place keep the order. -/
theorem pairwise_map_of_key {change : Record → Record}
    (keeps : ∀ record, (change record).key = record.key) {records : List Record}
    (ascending : records.Pairwise Record.Before) :
    (records.map change).Pairwise Record.Before := by
  rw [List.pairwise_map]
  refine ascending.imp ?_
  intro left right before
  simpa only [Record.Before, keeps] using before

/-- A file record with new dependencies; entities stay. -/
def redirectFile (next : FileRecord → List String) : Record → Record
  | .file file => .file { file with dependencies := next file }
  | .entity entity => .entity entity

def redirectEntity (next : EntityRecord → List String) : Record → Record
  | .file file => .file file
  | .entity entity => .entity { entity with dependencies := next entity }

/-- The table with new dependencies for every file. -/
def mapFiles (table : RecordTable) (next : FileRecord → List String) : RecordTable :=
  ⟨table.records.map (redirectFile next),
    pairwise_map_of_key (by intro record; cases record <;> rfl) table.ascending⟩

def mapEntities (table : RecordTable) (next : EntityRecord → List String) : RecordTable :=
  ⟨table.records.map (redirectEntity next),
    pairwise_map_of_key (by intro record; cases record <;> rfl) table.ascending⟩

/-- The table with one more dependency for the file under a key. -/
def dependFile (table : RecordTable) (key name : String) : RecordTable :=
  table.mapFiles fun file =>
    if file.key = key then (file.depend name).dependencies else file.dependencies

def dependEntity (table : RecordTable) (key name : String) : RecordTable :=
  table.mapEntities fun entity =>
    if entity.uniqueName = key then (entity.depend name).dependencies else entity.dependencies

/-! ## Views -/

/-- A record that is found is in the table and has the key. -/
theorem key_of_get? {table : RecordTable} {key : String} {record : Record}
    (found : table.get? key = some record) : record ∈ table.records ∧ record.key = key :=
  ⟨List.mem_of_find?_eq_some found, by simpa using List.find?_some found⟩

/-- A refused record leaves the table as it was. -/
theorem insert_of_not_accepts {table : RecordTable} {record : Record}
    (refused : table.accepts record = false) : table.insert record = table := by
  simp [insert, refused]

end RecordTable

end GodotGraph
