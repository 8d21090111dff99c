import GodotGraph.Proofs.Key
import GodotGraph.Proofs.Record.Table
import GodotGraph.Proofs.Script.Preamble
import Mathlib.Data.List.Nodup
import Mathlib.Data.List.Perm.Subperm

/-!
Contract: which declared classes a run keeps.

Owns:
- the classes that a source declares, with the names they are recorded under;
- the table of a run as the insertions of both phases;
- the exact condition under which every declared class has a record of its own.

A class is recorded under the name of its module and its own name. Two classes of one
name, or a class named like the key of a file, share a place in the table, and only one
record can hold it.
-/

set_option autoImplicit false

namespace GodotGraph

/-! ## Declarations -/

/-- A declared class, with the name that it is recorded under. -/
structure Declaration where
  fileKey : String
  localName : String
  tokens : List String
  uniqueName : String
  deriving DecidableEq, Repr

/-- What an entity says about its declaration. -/
def Declaration.ofEntity (entity : EntityRecord) : Declaration :=
  ⟨entity.fileKey, entity.localName, entity.tokens, entity.uniqueName⟩

/-- The classes that a script declares: itself, if it has a name, and all scopes that the
splitter names. -/
def Script.declarations (source : SourceFile) (key : String) : List Declaration :=
  let tokens := Token.ofSource source.text
  let className := (preamble tokens).1.className
  (className.toList.map fun name => ⟨key, name, tokens, name⟩) ++
    (splitter.split source.text).bodies.map fun body =>
      ⟨key, body.name, body.tokens, uniqueName (className.getD "") body.name⟩

/-- The classes that a source declares. -/
def Analysis.declarations (analysis : Analysis) (source : SourceFile) : List Declaration :=
  match source.language? with
  | some .script => Script.declarations source (analysis.keyFor source)
  | _ => []

/-- Every declaration has an entity of its own, of its file and with its local name and
tokens. -/
def RecordTable.Keeps (table : RecordTable) (declarations : List Declaration) : Prop :=
  ∃ kept : List EntityRecord,
    (kept.map fun entity => entity.uniqueName).Nodup ∧
      (∀ entity ∈ kept, entity ∈ table.entities) ∧
        (kept.map fun entity => (entity.fileKey, entity.localName, entity.tokens)) =
          declarations.map fun declaration =>
            (declaration.fileKey, declaration.localName, declaration.tokens)

/-! ## Extractions -/

/-- Linking and parents change nothing about where a class is declared. -/
theorem Declaration.ofEntity_withParents (entity : EntityRecord) :
    ofEntity (Script.withParents entity) = ofEntity entity :=
  rfl

theorem Script.key_extract (rootName : String) (source : SourceFile) (key : String) :
    (extract rootName source key).file.key = key := by
  simp only [extract]

theorem Script.entities_extract (rootName : String) (source : SourceFile) (key : String) :
    (extract rootName source key).entities =
      (preamble (Token.ofSource source.text)).1.className.toList.map fun name =>
        { localName := name
          moduleName := name
          uniqueName := name
          inheritance := (preamble (Token.ofSource source.text)).1.parent.toList
          dependencies := addAllOnce [] ((loads (Token.ofSource source.text)).map fun reference =>
            reference.resolve rootName (Key.directory key))
          fileKey := key
          language := .script
          tokens := Token.ofSource source.text } := by
  simp only [extract]

theorem Scene.entities_extract (rootName : String) (source : SourceFile) (key : String) :
    (extract rootName source key).entities = [] := by
  simp only [extract]

theorem Scene.key_extract (rootName : String) (source : SourceFile) (key : String) :
    (extract rootName source key).file.key = key := by
  simp only [extract]

/-- The entities of both phases say what the script declares. -/
theorem Script.declared_extract (rootName : String) (source : SourceFile) (key : String) :
    ((extract rootName source key).entities ++
        (innerEntities (extract rootName source key).file).1).map Declaration.ofEntity =
      declarations source key := by
  have own : (extract rootName source key).entities.map Declaration.ofEntity =
      (preamble (Token.ofSource source.text)).1.className.toList.map
        fun name => ⟨key, name, Token.ofSource source.text, name⟩ := by
    rw [extract, List.map_map]
    rfl
  have text : (extract rootName source key).file.source = source.text := rfl
  have scopes : (innerEntities (extract rootName source key).file).1.map Declaration.ofEntity =
      (splitter.split source.text).bodies.map fun body =>
        ⟨key, body.name, body.tokens,
          uniqueName ((preamble (Token.ofSource source.text)).1.className.getD "") body.name⟩ := by
    rw [innerEntities, text, List.map_map]
    refine List.map_congr_left fun body _ => ?_
    rw [Function.comp_apply, Declaration.ofEntity_withParents, entityOfBody, Declaration.ofEntity,
      moduleName_extract, key_extract]
  rw [List.map_append, own, scopes, declarations]

namespace Analysis

/-- What reading one source gives, seen from the table. -/
structure Extracted (analysis : Analysis) (source : SourceFile) (extraction : Extraction) :
    Prop where
  key : extraction.file.key = analysis.keyFor source
  dotted : '.' ∈ extraction.file.key.toList
  dotless : ∀ entity ∈ extraction.entities, '.' ∉ entity.uniqueName.toList
  declared : (extraction.entities ++ (innerEntities extraction.file).1).map Declaration.ofEntity =
    analysis.declarations source

theorem extracted_of_extract? {analysis : Analysis} {source : SourceFile} {extraction : Extraction}
    (found : analysis.extract? source = some extraction) :
    Extracted analysis source extraction := by
  unfold extract? at found
  cases language : source.language? with
  | none => simp [language] at found
  | some kind =>
      obtain ⟨extension, hasExtension, _⟩ := Option.bind_eq_some_iff.1 language
      have dotted := analysis.dot_mem_keyFor hasExtension
      rw [language] at found
      cases kind with
      | scene =>
          dsimp only at found
          split at found
          · obtain rfl := Option.some.inj found
            have key := Scene.key_extract analysis.rootName source (analysis.keyFor source)
            refine ⟨key, ?_, ?_, ?_⟩
            · rw [key]
              exact dotted
            · rw [Scene.entities_extract]
              simp
            · simp [declarations, language, innerEntities, Scene.extract]
          · simp at found
      | script =>
          dsimp only at found
          obtain rfl := Option.some.inj found
          have key := Script.key_extract analysis.rootName source (analysis.keyFor source)
          refine ⟨key, ?_, ?_, ?_⟩
          · rw [key]
            exact dotted
          · intro entity member
            rw [Script.entities_extract] at member
            obtain ⟨name, isName, rfl⟩ := List.mem_map.1 member
            have named : (Script.preamble (Token.ofSource source.text)).1.className = some name :=
              Option.mem_toList.1 isName
            intro inside
            exact absurd (Script.lettered_className named '.' inside) (by decide)
          · rw [declarations, language]
            exact Script.declared_extract analysis.rootName source (analysis.keyFor source)

theorem declarations_of_extract?_none {analysis : Analysis} {source : SourceFile}
    (found : analysis.extract? source = none) : analysis.declarations source = [] := by
  unfold extract? at found
  unfold declarations
  cases language : source.language? with
  | none => rfl
  | some kind =>
      cases kind with
      | script => simp [language] at found
      | scene => rfl

/-- The declarations of all sources are those of the entities of both phases. -/
theorem flatMap_declarations (analysis : Analysis) (sources : List SourceFile) :
    sources.flatMap analysis.declarations =
      (sources.filterMap analysis.extract?).flatMap fun extraction =>
        (extraction.entities ++ (innerEntities extraction.file).1).map Declaration.ofEntity := by
  induction sources with
  | nil => rfl
  | cons source rest inductionHypothesis =>
      rw [List.flatMap_cons, inductionHypothesis]
      cases found : analysis.extract? source with
      | none => rw [List.filterMap_cons_none found, declarations_of_extract?_none found]; rfl
      | some extraction =>
          rw [List.filterMap_cons_some found, List.flatMap_cons,
            (extracted_of_extract? found).declared]

/-! ## The first phase -/

/-- The records of an extraction, in the order of their insertion. -/
def recordsOf (extraction : Extraction) : List Record :=
  .file extraction.file :: extraction.entities.map .entity

/-- Extractions that cannot take each other's places as files. -/
structure Sound (extractions : List Extraction) : Prop where
  distinct : (extractions.map fun extraction => extraction.file.key).Nodup
  dotted : ∀ extraction ∈ extractions, '.' ∈ extraction.file.key.toList
  dotless : ∀ extraction ∈ extractions, ∀ entity ∈ extraction.entities,
    '.' ∉ entity.uniqueName.toList

theorem keys_sublist (analysis : Analysis) (sources : List SourceFile) :
    ((sources.filterMap analysis.extract?).map fun extraction => extraction.file.key).Sublist
      (sources.map analysis.keyFor) := by
  induction sources with
  | nil => exact List.Sublist.slnil
  | cons source rest inductionHypothesis =>
      cases found : analysis.extract? source with
      | none =>
          rw [List.filterMap_cons_none found, List.map_cons]
          exact inductionHypothesis.cons _
      | some extraction =>
          rw [List.filterMap_cons_some found, List.map_cons, List.map_cons,
            (extracted_of_extract? found).key]
          exact inductionHypothesis.cons_cons _

/-- Sources with different keys give sound extractions. -/
theorem sound_of_distinct {analysis : Analysis} {sources : List SourceFile}
    (distinct : (sources.map analysis.keyFor).Nodup) :
    Sound (sources.filterMap analysis.extract?) where
  distinct := distinct.sublist (keys_sublist analysis sources)
  dotted := by
    intro extraction member
    obtain ⟨source, _, found⟩ := List.mem_filterMap.1 member
    exact (extracted_of_extract? found).dotted
  dotless := by
    intro extraction member
    obtain ⟨source, _, found⟩ := List.mem_filterMap.1 member
    exact (extracted_of_extract? found).dotless

theorem insertExtraction_eq (table : RecordTable) (extraction : Extraction) :
    insertExtraction table extraction = table.insertAll (recordsOf extraction) := by
  rw [insertExtraction, recordsOf, RecordTable.insertAll, List.foldl_cons, List.foldl_map]
  rfl

theorem fileTable_eq (extractions : List Extraction) :
    fileTable extractions = RecordTable.empty.insertAll (extractions.flatMap recordsOf) := by
  rw [fileTable]
  generalize RecordTable.empty = table
  induction extractions generalizing table with
  | nil => rfl
  | cons extraction rest inductionHypothesis =>
      rw [List.foldl_cons, inductionHypothesis, insertExtraction_eq, List.flatMap_cons,
        RecordTable.insertAll_append]

theorem exists_extraction_of_mem_fileTable {extractions : List Extraction} {record : Record}
    (stored : record ∈ (fileTable extractions).records) :
    ∃ extraction ∈ extractions, record ∈ recordsOf extraction := by
  rw [fileTable_eq] at stored
  rcases RecordTable.mem_of_mem_insertAll stored with before | inserted
  · simp [RecordTable.empty] at before
  · exact List.mem_flatMap.1 inserted

theorem eq_of_key_eq_file {extractions : List Extraction} (sound : Sound extractions)
    {extraction : Extraction} (member : extraction ∈ extractions) {record : Record}
    (inserted : record ∈ extractions.flatMap recordsOf) (same : record.key = extraction.file.key) :
    record = .file extraction.file := by
  obtain ⟨other, otherIn, isRecord⟩ := List.mem_flatMap.1 inserted
  rcases List.mem_cons.1 isRecord with rfl | isEntity
  · have equal : other = extraction := List.inj_on_of_nodup_map sound.distinct otherIn member same
    rw [equal]
  · obtain ⟨entity, entityIn, rfl⟩ := List.mem_map.1 isEntity
    have dotted := sound.dotted extraction member
    rw [← same] at dotted
    exact absurd dotted (sound.dotless other otherIn entity entityIn)

theorem get?_fileTable {extractions : List Extraction} (sound : Sound extractions)
    {extraction : Extraction} (member : extraction ∈ extractions) :
    (fileTable extractions).get? extraction.file.key = some (.file extraction.file) := by
  have inserted : .file extraction.file ∈ extractions.flatMap recordsOf :=
    List.mem_flatMap.2 ⟨extraction, member, List.mem_cons_self⟩
  have only : ∀ other ∈ extractions.flatMap recordsOf,
      other.key = extraction.file.key → other = .file extraction.file :=
    fun other inOther same => eq_of_key_eq_file sound member inOther same
  rw [fileTable_eq]
  exact RecordTable.get?_insertAll_of_mem inserted only fun held found => by
    simp [RecordTable.get?, RecordTable.empty] at found

theorem mem_files_fileTable {extractions : List Extraction} (sound : Sound extractions)
    {file : FileRecord} :
    file ∈ (fileTable extractions).files ↔ file ∈ extractions.map fun extraction => extraction.file := by
  rw [RecordTable.mem_files, List.mem_map]
  constructor
  · intro stored
    obtain ⟨extraction, member, isRecord⟩ := exists_extraction_of_mem_fileTable stored
    refine ⟨extraction, member, ?_⟩
    simpa [recordsOf, eq_comm] using isRecord
  · rintro ⟨extraction, member, rfl⟩
    exact (RecordTable.get?_eq_some_iff.1 (get?_fileTable sound member)).1

/-- The files of the first phase are those of the extractions, in the order of their keys. -/
theorem files_perm {extractions : List Extraction} (sound : Sound extractions) :
    (fileTable extractions).files.Perm (extractions.map fun extraction => extraction.file) := by
  have ascending := RecordTable.pairwise_fileKeys (fileTable extractions)
  have keys : (fileTable extractions).fileKeys.Nodup := ascending.imp fun before => Std.ne_of_lt before
  have files : (fileTable extractions).files.Nodup := List.Nodup.of_map _ keys
  have written : (extractions.map fun extraction => extraction.file).Nodup := by
    have distinct : ((extractions.map fun extraction => extraction.file).map
        fun file => file.key).Nodup := by
      rw [List.map_map]
      exact sound.distinct
    exact List.Nodup.of_map _ distinct
  exact (List.perm_ext_iff_of_nodup files written).2 fun file => mem_files_fileTable sound

/-! ## The second phase -/

/-- The entities that the second phase inserts for some files. -/
def innerOf (files : List FileRecord) : List EntityRecord :=
  files.flatMap fun file => Sibling.link (innerEntities file).1

theorem foldl_insertInner (files : List FileRecord) (table : RecordTable) :
    files.foldl insertInner table = table.insertAll ((innerOf files).map .entity) := by
  induction files generalizing table with
  | nil => rfl
  | cons file rest inductionHypothesis =>
      have step : insertInner table file =
          table.insertAll ((Sibling.link (innerEntities file).1).map .entity) := by
        rw [insertInner, RecordTable.insertAll, List.foldl_map]
        rfl
      rw [List.foldl_cons, inductionHypothesis, step, innerOf, innerOf, List.flatMap_cons,
        List.map_append, RecordTable.insertAll_append]

theorem map_ofEntity_link (entities : List EntityRecord) :
    (Sibling.link entities).map Declaration.ofEntity = entities.map Declaration.ofEntity := by
  rw [Sibling.link, List.map_map]
  rfl

/-- All entities of a run, in the order of their insertion. -/
def entitiesOf (extractions : List Extraction) : List EntityRecord :=
  extractions.flatMap (fun extraction => extraction.entities) ++
    innerOf (fileTable extractions).files

/-- The table of a run before dependencies are curated and inferred. -/
def filled (extractions : List Extraction) : RecordTable :=
  (fileTable extractions).insertAll ((innerOf (fileTable extractions).files).map .entity)

/-- The entities of a run are the declarations of its sources. -/
theorem map_ofEntity_entitiesOf {extractions : List Extraction} (sound : Sound extractions) :
    ((entitiesOf extractions).map Declaration.ofEntity).Perm
      (extractions.flatMap fun extraction =>
        (extraction.entities ++ (innerEntities extraction.file).1).map Declaration.ofEntity) := by
  have inner : ((innerOf (fileTable extractions).files).map Declaration.ofEntity).Perm
      (extractions.flatMap fun extraction =>
        (innerEntities extraction.file).1.map Declaration.ofEntity) := by
    have perm := (files_perm sound).flatMap_right fun file =>
      (innerEntities file).1.map Declaration.ofEntity
    rw [List.flatMap_map] at perm
    rw [innerOf, List.map_flatMap]
    simpa only [map_ofEntity_link] using perm
  rw [entitiesOf, List.map_append, List.map_flatMap]
  refine (List.Perm.append_left _ inner).trans ?_
  have split := List.flatMap_append_perm extractions
    (fun extraction => extraction.entities.map Declaration.ofEntity)
    (fun extraction => (innerEntities extraction.file).1.map Declaration.ofEntity)
  simpa only [List.map_append] using split

/-- All records that a run inserts, in the order of their insertion. -/
def inserted (extractions : List Extraction) : List Record :=
  extractions.flatMap recordsOf ++ (innerOf (fileTable extractions).files).map .entity

theorem filled_eq (extractions : List Extraction) :
    filled extractions = RecordTable.empty.insertAll (inserted extractions) := by
  rw [inserted, RecordTable.insertAll_append, ← fileTable_eq, filled]

/-- The inserted records are the files of the extractions and the entities of the run. -/
theorem mem_inserted {extractions : List Extraction} {record : Record} :
    record ∈ inserted extractions ↔
      (∃ extraction ∈ extractions, record = .file extraction.file) ∨
        ∃ entity ∈ entitiesOf extractions, record = .entity entity := by
  constructor
  · intro member
    rcases List.mem_append.1 member with first | second
    · obtain ⟨extraction, inExtractions, isRecord⟩ := List.mem_flatMap.1 first
      rcases List.mem_cons.1 isRecord with rfl | isEntity
      · exact Or.inl ⟨extraction, inExtractions, rfl⟩
      · obtain ⟨entity, inEntities, rfl⟩ := List.mem_map.1 isEntity
        exact Or.inr ⟨entity, List.mem_append_left _
          (List.mem_flatMap.2 ⟨extraction, inExtractions, inEntities⟩), rfl⟩
    · obtain ⟨entity, inInner, rfl⟩ := List.mem_map.1 second
      exact Or.inr ⟨entity, List.mem_append_right _ inInner, rfl⟩
  · rintro (⟨extraction, inExtractions, rfl⟩ | ⟨entity, member, rfl⟩)
    · exact List.mem_append_left _ (List.mem_flatMap.2 ⟨extraction, inExtractions,
        List.mem_cons_self⟩)
    · rcases List.mem_append.1 member with first | second
      · obtain ⟨extraction, inExtractions, inEntities⟩ := List.mem_flatMap.1 first
        exact List.mem_append_left _ (List.mem_flatMap.2 ⟨extraction, inExtractions,
          List.mem_cons_of_mem _ (List.mem_map_of_mem inEntities)⟩)
      · exact List.mem_append_right _ (List.mem_map_of_mem second)

/-- An entity of the filled table was inserted in one of the phases. -/
theorem mem_entitiesOf_of_filled {extractions : List Extraction} {entity : EntityRecord}
    (stored : .entity entity ∈ (filled extractions).records) : entity ∈ entitiesOf extractions := by
  rw [filled_eq] at stored
  rcases RecordTable.mem_of_mem_insertAll stored with before | isInserted
  · simp [RecordTable.empty] at before
  · simpa using mem_inserted.1 isInserted

/-- A file stays in the table, whatever the second phase inserts. -/
theorem file?_filled {extractions : List Extraction} (sound : Sound extractions)
    {extraction : Extraction} (member : extraction ∈ extractions) :
    (filled extractions).file? extraction.file.key = some extraction.file := by
  have entities : ∀ record ∈ (innerOf (fileTable extractions).files).map Record.entity,
      record.isFile = false := by
    intro record isRecord
    obtain ⟨entity, _, rfl⟩ := List.mem_map.1 isRecord
    rfl
  rw [filled, RecordTable.file?_insertAll_of_entities entities, RecordTable.file?,
    get?_fileTable sound member]
  rfl

/-- An entity with a name that no other record has is in the filled table. -/
theorem get?_filled {extractions : List Extraction}
    (distinct : ((entitiesOf extractions).map fun entity => entity.uniqueName).Nodup)
    {entity : EntityRecord} (member : entity ∈ entitiesOf extractions)
    (noFile : ∀ extraction ∈ extractions, extraction.file.key ≠ entity.uniqueName) :
    (filled extractions).get? entity.uniqueName = some (.entity entity) := by
  have isInserted : .entity entity ∈ inserted extractions :=
    mem_inserted.2 (Or.inr ⟨entity, member, rfl⟩)
  have only : ∀ other ∈ inserted extractions,
      other.key = (Record.entity entity).key → other = .entity entity := by
    intro other inOther same
    rcases mem_inserted.1 inOther with ⟨extraction, inExtractions, rfl⟩ | ⟨rival, inEntities, rfl⟩
    · exact absurd same (noFile extraction inExtractions)
    · rw [List.inj_on_of_nodup_map distinct inEntities member same]
  rw [filled_eq]
  exact RecordTable.get?_insertAll_of_mem isInserted only fun held found => by
    simp [RecordTable.get?, RecordTable.empty] at found

/-! ## The run -/

theorem table_run (analysis : Analysis) (sources : List SourceFile) :
    (analysis.run sources).table = finish (fileTable (sources.filterMap analysis.extract?)) := by
  simp [run, List.filterMap_map]

/-- Curation and type usages change the dependencies of an entity only. -/
theorem entity?_finish (extractions : List Extraction) (name : String) :
    ∃ next : EntityRecord → List String,
      (finish (fileTable extractions)).entity? name =
        ((filled extractions).entity? name).map fun entity =>
          { entity with dependencies := next entity } := by
  refine ⟨TypeUsage.dependencies (Curation.curateTable (filled extractions)).entityKeys, ?_⟩
  rw [finish, foldl_insertInner, inferUsages, RecordTable.entity?_mapEntities, Curation.curateTable,
    RecordTable.entity?_mapFiles]
  rfl

/-- The entities of a finished run are those of the filled table, as far as declarations go. -/
theorem mem_entities_finish {extractions : List Extraction} {entity : EntityRecord}
    (stored : entity ∈ (finish (fileTable extractions)).entities) :
    ∃ before, (filled extractions).entity? entity.uniqueName = some before ∧
      Declaration.ofEntity before = Declaration.ofEntity entity := by
  obtain ⟨next, found⟩ := entity?_finish extractions entity.uniqueName
  rw [RecordTable.mem_entities, found] at stored
  obtain ⟨before, isBefore, changed⟩ := Option.map_eq_some_iff.1 stored
  refine ⟨before, isBefore, ?_⟩
  rw [← changed]
  rfl

theorem exists_map_eq {α β : Type} {image : α → β} {wanted : α → Prop} {targets : List β}
    (each : ∀ target ∈ targets, ∃ source, wanted source ∧ image source = target) :
    ∃ sources : List α, (∀ source ∈ sources, wanted source) ∧ sources.map image = targets := by
  induction targets with
  | nil => exact ⟨[], by simp, rfl⟩
  | cons target rest inductionHypothesis =>
      obtain ⟨source, isWanted, same⟩ := each target List.mem_cons_self
      obtain ⟨sources, areWanted, sameRest⟩ := inductionHypothesis fun other member =>
        each other (List.mem_cons_of_mem _ member)
      refine ⟨source :: sources, ?_, by simp [same, sameRest]⟩
      intro other member
      rcases List.mem_cons.1 member with rfl | inside
      · exact isWanted
      · exact areWanted other inside

section Kept

variable {extractions : List Extraction} {declarations : List Declaration}

/-- The names of a list of declarations. -/
abbrev namesOf (declarations : List Declaration) : List String :=
  declarations.map fun declaration => declaration.uniqueName

/-- A table that keeps declarations without any others keeps all of their names. -/
theorem names_of_keeps {table : RecordTable} (keeps : table.Keeps declarations)
    (only : ∀ entity ∈ table.entities, entity.uniqueName ∈ namesOf declarations) :
    (namesOf declarations).Nodup ∧
      ∀ name ∈ namesOf declarations, ∃ entity ∈ table.entities, entity.uniqueName = name := by
  obtain ⟨kept, apart, stored, facts⟩ := keeps
  have inside : (kept.map fun entity => entity.uniqueName).Subperm (namesOf declarations) := by
    refine apart.subperm ?_
    intro name member
    obtain ⟨entity, inKept, rfl⟩ := List.mem_map.1 member
    exact only entity (stored entity inKept)
  -- As many names are kept as are declared, so they are the same names.
  have lengths := congrArg List.length facts
  rw [List.length_map, List.length_map] at lengths
  have same := inside.perm_of_length_le (by simp [lengths])
  refine ⟨same.nodup_iff.1 apart, ?_⟩
  intro name member
  obtain ⟨entity, inKept, isName⟩ := List.mem_map.1 (same.symm.subset member)
  exact ⟨entity, stored entity inKept, isName⟩

/-- A table keeps declarations of different names if it has an entity for each. -/
theorem keeps_of_each {table : RecordTable} (apart : (namesOf declarations).Nodup)
    (each : ∀ declaration ∈ declarations,
      ∃ entity, entity ∈ table.entities ∧ Declaration.ofEntity entity = declaration) :
    table.Keeps declarations := by
  obtain ⟨kept, stored, isImage⟩ := exists_map_eq each
  refine ⟨kept, ?_, stored, ?_⟩
  · rw [← isImage, namesOf, List.map_map] at apart
    exact apart
  · rw [← isImage, List.map_map]
    rfl

/-- An entity of a finished run has the name of a declaration. -/
theorem name_mem_of_finish
    (perm : ((entitiesOf extractions).map Declaration.ofEntity).Perm declarations)
    {entity : EntityRecord} (stored : entity ∈ (finish (fileTable extractions)).entities) :
    entity.uniqueName ∈ namesOf declarations := by
  obtain ⟨before, found, same⟩ := mem_entities_finish stored
  have isEntity := mem_entitiesOf_of_filled (RecordTable.entity?_eq_some_iff.1 found).1
  have declared := perm.subset (List.mem_map_of_mem isEntity)
  have sameName : before.uniqueName = entity.uniqueName := congrArg Declaration.uniqueName same
  rw [← sameName]
  exact List.mem_map_of_mem declared

/-- No entity of a finished run has the key of a file. -/
theorem key_ne_of_finish (sound : Sound extractions) {entity : EntityRecord}
    (stored : entity ∈ (finish (fileTable extractions)).entities) {extraction : Extraction}
    (member : extraction ∈ extractions) : extraction.file.key ≠ entity.uniqueName := by
  intro equal
  obtain ⟨before, isEntity, _⟩ := mem_entities_finish stored
  have isFile := file?_filled sound member
  rw [equal] at isFile
  rw [RecordTable.entity?_eq_some_iff] at isEntity
  rw [RecordTable.file?_eq_some_iff] at isFile
  have clash := RecordTable.eq_of_key_eq isEntity.1 isFile.1 (isEntity.2.trans isFile.2.symm)
  exact absurd clash (by simp)

/-- An entity with a name of its own is still there when the run is finished. -/
theorem mem_finish_of_distinct
    (distinct : ((entitiesOf extractions).map fun entity => entity.uniqueName).Nodup)
    {entity : EntityRecord} (member : entity ∈ entitiesOf extractions)
    (noFile : ∀ extraction ∈ extractions, extraction.file.key ≠ entity.uniqueName) :
    ∃ last, last ∈ (finish (fileTable extractions)).entities ∧
      Declaration.ofEntity last = Declaration.ofEntity entity := by
  obtain ⟨next, found⟩ := entity?_finish extractions entity.uniqueName
  have isEntity : (filled extractions).entity? entity.uniqueName = some entity := by
    rw [RecordTable.entity?, get?_filled distinct member noFile]
    rfl
  rw [isEntity, Option.map_some] at found
  exact ⟨{ entity with dependencies := next entity }, RecordTable.mem_entities.2 found, rfl⟩

end Kept

/-- The keys of the files that are read are those of the extractions. -/
theorem forall_keys_iff (analysis : Analysis) (sources : List SourceFile) (name : String) :
    (∀ source ∈ sources, (analysis.extract? source).isSome = true →
        analysis.keyFor source ≠ name) ↔
      ∀ extraction ∈ sources.filterMap analysis.extract?, extraction.file.key ≠ name := by
  constructor
  · intro differs extraction member
    obtain ⟨source, inSources, found⟩ := List.mem_filterMap.1 member
    rw [(extracted_of_extract? found).key]
    exact differs source inSources (by rw [found]; rfl)
  · intro differs source inSources isRead
    obtain ⟨extraction, found⟩ := Option.isSome_iff_exists.1 isRead
    rw [← (extracted_of_extract? found).key]
    exact differs extraction (List.mem_filterMap.2 ⟨source, inSources, found⟩)

/-- A run over sources with different keys keeps all declared classes exactly if their unique
names differ from each other and from the keys of the files that are read. -/
theorem run_keeps_iff (analysis : Analysis) {sources : List SourceFile}
    (distinct : (sources.map analysis.keyFor).Nodup) :
    (analysis.run sources).table.Keeps (sources.flatMap analysis.declarations) ↔
      ((sources.flatMap analysis.declarations).map
          fun declaration => declaration.uniqueName).Nodup ∧
        ∀ declaration ∈ sources.flatMap analysis.declarations, ∀ source ∈ sources,
          (analysis.extract? source).isSome = true →
            analysis.keyFor source ≠ declaration.uniqueName := by
  have sound := sound_of_distinct distinct
  have perm := map_ofEntity_entitiesOf sound
  rw [← flatMap_declarations] at perm
  rw [table_run]
  simp only [forall_keys_iff]
  constructor
  · intro keeps
    obtain ⟨apart, all⟩ := names_of_keeps keeps fun entity stored => name_mem_of_finish perm stored
    refine ⟨apart, ?_⟩
    intro declaration member extraction inExtractions
    obtain ⟨entity, stored, isName⟩ := all _ (List.mem_map_of_mem member)
    rw [← isName]
    exact key_ne_of_finish sound stored inExtractions
  · rintro ⟨apart, noFile⟩
    have names := perm.map fun declaration => declaration.uniqueName
    rw [List.map_map] at names
    refine keeps_of_each apart ?_
    intro declaration member
    obtain ⟨entity, isEntity, rfl⟩ := List.mem_map.1 (perm.symm.subset member)
    exact mem_finish_of_distinct (names.nodup_iff.2 apart) isEntity
      fun extraction inExtractions => noFile _ member extraction inExtractions

/-! ## Classes of one name -/

/-- A project below one directory. -/
def gameAnalysis : Analysis := ⟨"/work/game", true⟩

/-- Two scripts with classes of their own and a class of the same name in each. -/
def namedScripts : List SourceFile :=
  [⟨"/work/game/enemy.gd", "class_name Enemy\nclass State:\n\tpass\n"⟩,
    ⟨"/work/game/player.gd", "class_name Player\nclass State:\n\tpass\n"⟩]

theorem run_keeps_namedScripts :
    (namedScripts.map gameAnalysis.keyFor).Nodup ∧
      ((namedScripts.flatMap gameAnalysis.declarations).map
          fun declaration => declaration.uniqueName) =
        ["Enemy", "Enemy.State", "Player", "Player.State"] ∧
      (gameAnalysis.run namedScripts).table.Keeps
        (namedScripts.flatMap gameAnalysis.declarations) := by
  have distinct : (namedScripts.map gameAnalysis.keyFor).Nodup := by decide +kernel
  exact ⟨distinct, by decide +kernel,
    (run_keeps_iff gameAnalysis distinct).2 ⟨by decide +kernel, by decide +kernel⟩⟩

/-- The same scripts without names of their own. -/
def namelessScripts : List SourceFile :=
  [⟨"/work/game/a.gd", "class State:\n\tpass\n"⟩,
    ⟨"/work/game/b.gd", "class State:\n\tpass\n"⟩]

/-- Different keys, different class names, and different names within every script do not
suffice: classes of scripts without a name are recorded under their local names. -/
theorem run_loses_class :
    ¬ ∀ (analysis : Analysis) (sources : List SourceFile),
      (sources.map analysis.keyFor).Nodup →
      (sources.filterMap fun source =>
        (Script.preamble (Token.ofSource source.text)).1.className).Nodup →
      (∀ source ∈ sources, ((analysis.declarations source).map
        fun declaration => declaration.localName).Nodup) →
      (analysis.run sources).table.Keeps (sources.flatMap analysis.declarations) := by
  intro keeps
  obtain ⟨kept, apart, stored, facts⟩ := keeps gameAnalysis namelessScripts (by decide +kernel)
    (by decide +kernel) (by decide +kernel)
  have declared : (namelessScripts.flatMap gameAnalysis.declarations).length = 2 := by
    decide +kernel
  have held : (gameAnalysis.run namelessScripts).table.entities.length = 1 := by decide +kernel
  have lengths := congrArg List.length facts
  rw [List.length_map, List.length_map, declared] at lengths
  have few := ((List.Nodup.of_map _ apart).subperm stored).length_le
  omega

end Analysis

end GodotGraph
