import GodotGraph.Proofs.Analysis.Declarations
import GodotGraph.Proofs.Curation
import GodotGraph.Proofs.Grammar.Header
import GodotGraph.Proofs.Record.History
import GodotGraph.Proofs.Sibling
import GodotGraph.Proofs.TypeUsage

/-!
Contract: what the records of a run say about each other.

Owns:
- files that are never refused, since no class of the first phase has a name with a dot in it;
- the file of every class, which is in the table of every run;
- the dependencies that type usages add, which are names of other classes;
- lists without repetition, also after parents are linked.

The sources may share keys. A later file then takes the place of an earlier one.
-/

set_option autoImplicit false

namespace GodotGraph

/-! ## Parents -/

namespace Script

theorem dotless_of_parentOf? {tokens : List String} {localName parent : String}
    {found : Grammar.Match} (matched : found ∈ matchesOf (headerAttempts tokens))
    (named : parentOf? localName found = some parent) : Dotless parent := by
  obtain ⟨attempt, tried, isFound⟩ := List.mem_filterMap.1 matched
  obtain ⟨window, applies, rfl⟩ := List.mem_map.1 tried
  have anchor : window.anchor = Grammar.classKeyword := by
    simpa using (List.mem_filter.1 applies).2
  have parsed : Grammar.classHeader.parseWindow window = .ok found := by
    cases outcome : Grammar.classHeader.parseWindow window with
    | error mismatch => simp [outcome, Except.toOption] at isFound
    | ok other => simpa [outcome, Except.toOption] using isFound
  have isFirst : found.first? Grammar.parentCapture = some parent := by
    unfold parentOf? at named
    split at named
    · exact named
    · cases named
  obtain ⟨capture, isCapture, rfl⟩ := Option.map_eq_some_iff.1 isFirst
  exact dotless_of_letters (Grammar.letters_of_classHeader anchor parsed capture
    (List.mem_of_find?_eq_some isCapture))

/-- A class has no two parents of one name, and no parent with a dot in its name. -/
theorem inheritance_innerEntities {file : FileRecord} {entity : EntityRecord}
    (member : entity ∈ (innerEntities file).1) :
    entity.inheritance.Nodup ∧ ∀ parent ∈ entity.inheritance, Dotless parent := by
  obtain ⟨body, _, rfl⟩ := List.mem_map.1 member
  refine ⟨nodup_addAllOnce _ List.nodup_nil, ?_⟩
  intro parent listed
  rcases mem_addAllOnce.1 listed with before | declared
  · cases before
  · obtain ⟨found, matched, named⟩ := List.mem_filterMap.1 declared
    exact dotless_of_parentOf? matched named

end Script

namespace Analysis

/-! ## Files -/

/-- Every extraction is that of a source. -/
def OfSources (analysis : Analysis) (extractions : List Extraction) : Prop :=
  ∀ extraction ∈ extractions, ∃ source, analysis.extract? source = some extraction

theorem ofSources_filterMap (analysis : Analysis) (sources : List SourceFile) :
    analysis.OfSources (sources.filterMap analysis.extract?) := by
  intro extraction member
  obtain ⟨source, _, found⟩ := List.mem_filterMap.1 member
  exact ⟨source, found⟩

/-- No class of the first phase has a name that is the key of a file. -/
theorem accepts_file {analysis : Analysis} {earlier : List Extraction}
    (read : analysis.OfSources earlier)
    {source : SourceFile} {extraction : Extraction}
    (found : analysis.extract? source = some extraction) :
    (fileTable earlier).accepts (.file extraction.file) = true := by
  refine RecordTable.accepts_of_isFile_eq ?_
  intro held isHeld
  obtain ⟨stored, isKey⟩ := RecordTable.get?_eq_some_iff.1 isHeld
  obtain ⟨other, inEarlier, isRecord⟩ := exists_extraction_of_mem_fileTable stored
  rcases List.mem_cons.1 isRecord with rfl | isEntity
  · rfl
  · obtain ⟨entity, member, rfl⟩ := List.mem_map.1 isEntity
    obtain ⟨otherSource, otherFound⟩ := read other inEarlier
    have dotless := (extracted_of_extract? otherFound).dotless entity member
    have dotted := (extracted_of_extract? found).dotted
    rw [show extraction.file.key = entity.uniqueName from isKey.symm] at dotted
    exact absurd dotted dotless

/-- The operations that put an extraction into a table. -/
def operationsOf (extraction : Extraction) : List RecordTable.Operation :=
  .insertFile extraction.file :: extraction.entities.map .insertEntity

theorem foldl_insertExtraction (extractions : List Extraction) (table : RecordTable) :
    extractions.foldl insertExtraction table =
      table.applyAll (extractions.flatMap operationsOf) := by
  induction extractions generalizing table with
  | nil => rfl
  | cons extraction rest inductionHypothesis =>
      have step : insertExtraction table extraction = table.applyAll (operationsOf extraction) := by
        rw [insertExtraction, operationsOf, RecordTable.applyAll, List.foldl_cons, List.foldl_map]
        rfl
      rw [List.foldl_cons, inductionHypothesis, step, List.flatMap_cons,
        RecordTable.applyAll_append]

/-- The second phase is a history of operations on the table of the first. -/
theorem finish_eq_applyAll (table : RecordTable) :
    finish table = table.applyAll
      ((innerOf table.files).map .insertEntity ++ [.curate, .inferUsages]) := by
  have inner : table.files.foldl insertInner table =
      table.applyAll ((innerOf table.files).map .insertEntity) := by
    rw [foldl_insertInner, RecordTable.insertAll, RecordTable.applyAll, List.foldl_map,
      List.foldl_map]
    rfl
  rw [finish, inner, RecordTable.applyAll_append]
  rfl

/-- The key of a file that was read holds a file from then on. -/
theorem kindAt_finish {analysis : Analysis} {extractions : List Extraction}
    (read : analysis.OfSources extractions)
    {extraction : Extraction} (member : extraction ∈ extractions) :
    (finish (fileTable extractions)).kindAt extraction.file.key = some true := by
  obtain ⟨earlier, later, rfl⟩ := List.append_of_mem member
  obtain ⟨source, found⟩ := read extraction member
  have accepted : (fileTable earlier).accepts (.file extraction.file) = true :=
    accepts_file (fun other inEarlier => read other (List.mem_append_left _ inEarlier)) found
  have held : ((fileTable earlier).insertFile extraction.file).kindAt extraction.file.key =
      some true := by
    rw [RecordTable.kindAt, RecordTable.insertFile, RecordTable.get?_insert_of_accepts accepted]
    simp [Record.key, Record.isFile]
  have shape : fileTable (earlier ++ extraction :: later) =
      ((fileTable earlier).insertFile extraction.file).applyAll
        (extraction.entities.map .insertEntity ++ later.flatMap operationsOf) := by
    rw [fileTable, List.foldl_append, foldl_insertExtraction (extraction :: later),
      List.flatMap_cons, operationsOf, List.cons_append]
    rfl
  rw [finish_eq_applyAll, shape]
  exact RecordTable.kindAt_applyAll (RecordTable.kindAt_applyAll held _) _

/-! ## Classes before dependencies are inferred -/

/-- What a class says when it is inserted for a file. -/
structure BelongsTo (entity : EntityRecord) (file : FileRecord) : Prop where
  fileKey : entity.fileKey = file.key
  dependencies : entity.dependencies.Nodup
  inheritance : entity.inheritance.Nodup

theorem belongsTo_of_extract? {analysis : Analysis} {source : SourceFile} {extraction : Extraction}
    (found : analysis.extract? source = some extraction) {entity : EntityRecord}
    (member : entity ∈ extraction.entities) : BelongsTo entity extraction.file := by
  unfold extract? at found
  split at found
  · cases found
  · obtain rfl := Option.some.inj found
    rw [Script.entities_extract] at member
    obtain ⟨name, _, rfl⟩ := List.mem_map.1 member
    constructor
    · rw [Script.key_extract]
    · dsimp only
      exact nodup_addAllOnce _ List.nodup_nil
    · dsimp only
      cases (Script.preamble (Token.ofSource source.text)).1.parent with
      | none => exact List.nodup_nil
      | some parent => exact List.nodup_singleton parent
  · split at found
    · obtain rfl := Option.some.inj found
      rw [Scene.entities_extract] at member
      cases member
    · cases found

theorem belongsTo_of_link {file : FileRecord} {entity : EntityRecord}
    (member : entity ∈ Sibling.link (innerEntities file).1) : BelongsTo entity file := by
  unfold innerEntities at member
  cases language : file.language with
  | scene => simp [language, Sibling.link] at member
  | script =>
      rw [language] at member
      obtain ⟨inner, isInner, rfl⟩ := List.mem_map.1 member
      obtain ⟨distinct, dotless⟩ := Script.inheritance_innerEntities isInner
      have unlinked : inner.fileKey = file.key ∧ inner.dependencies = [] := by
        obtain ⟨body, _, rfl⟩ := List.mem_map.1 isInner
        exact ⟨rfl, rfl⟩
      refine ⟨unlinked.1, ?_, ?_⟩
      · rw [show (Sibling.linkParents _ inner).dependencies = inner.dependencies from rfl,
          unlinked.2]
        exact List.nodup_nil
      · exact distinct.map_on fun left isLeft right isRight =>
          Sibling.eq_of_linkedName_eq (Sibling.ofOneModule_innerEntities _)
            (dotless left isLeft) (dotless right isRight)

theorem belongsTo_of_mem {analysis : Analysis} {extractions : List Extraction}
    (read : analysis.OfSources extractions)
    {entity : EntityRecord} (member : entity ∈ entitiesOf extractions) :
    ∃ extraction ∈ extractions, BelongsTo entity extraction.file := by
  rcases List.mem_append.1 member with first | second
  · obtain ⟨extraction, inExtractions, inEntities⟩ := List.mem_flatMap.1 first
    obtain ⟨source, found⟩ := read extraction inExtractions
    exact ⟨extraction, inExtractions, belongsTo_of_extract? found inEntities⟩
  · obtain ⟨file, isFile, isInner⟩ := List.mem_flatMap.1 second
    obtain ⟨extraction, inExtractions, isRecord⟩ :=
      exists_extraction_of_mem_fileTable (RecordTable.mem_files.1 isFile)
    obtain rfl : extraction.file = file := by simpa [recordsOf, eq_comm] using isRecord
    exact ⟨extraction, inExtractions, belongsTo_of_link isInner⟩

/-! ## The finished table -/

/-- The table of a run before type usages are inferred. -/
def settled (extractions : List Extraction) : RecordTable :=
  Curation.curateTable (filled extractions)

theorem finish_eq (extractions : List Extraction) :
    finish (fileTable extractions) = inferUsages (settled extractions) := by
  rw [finish, foldl_insertInner]
  rfl

theorem entityKeys_inferUsages (table : RecordTable) :
    (inferUsages table).entityKeys = table.entityKeys := by
  rw [RecordTable.entityKeys, inferUsages, RecordTable.entities_mapEntities, List.map_map]
  rfl

/-- Type usages add names of other classes of the table, and nothing else. -/
theorem exists_added_of_inferUsages {table : RecordTable} {entity : EntityRecord}
    (stored : entity ∈ (inferUsages table).entities) :
    ∃ former ∈ table.entities, ∃ added,
      entity = { former with dependencies := former.dependencies ++ added } ∧
        ∀ name ∈ added, ∃ other ∈ (inferUsages table).entities,
          other.uniqueName = name ∧ other.uniqueName ≠ entity.uniqueName := by
  have keys := entityKeys_inferUsages table
  rw [inferUsages, RecordTable.entities_mapEntities] at stored
  obtain ⟨former, isFormer, rfl⟩ := List.mem_map.1 stored
  obtain ⟨added, shape, detected⟩ := TypeUsage.exists_detected table.entityKeys former
  refine ⟨former, isFormer, added, by rw [← shape], ?_⟩
  intro name member
  obtain ⟨known, -, notOwn, -, -⟩ := detected.mem_iff.1 member
  rw [← keys] at known
  obtain ⟨other, isOther, rfl⟩ := List.mem_map.1 known
  exact ⟨other, isOther, rfl, notOwn⟩

/-- What a finished table says of the records in it. -/
structure Coherent (table : RecordTable) : Prop where
  keyed : table.WellKeyed
  owned : ∀ entity ∈ table.entities, ∃ file ∈ table.files, file.key = entity.fileKey
  fileDependencies : ∀ file ∈ table.files, file.dependencies.Nodup
  dependencies : ∀ entity ∈ table.entities, entity.dependencies.Nodup
  inheritance : ∀ entity ∈ table.entities, entity.inheritance.Nodup

section

variable {analysis : Analysis} {extractions : List Extraction}

theorem entities_finish (extractions : List Extraction) :
    (finish (fileTable extractions)).entities = (filled extractions).entities.map fun former =>
      { former with
        dependencies := TypeUsage.dependencies (settled extractions).entityKeys former } := by
  rw [finish_eq, inferUsages, RecordTable.entities_mapEntities, settled, Curation.curateTable,
    RecordTable.entities_mapFiles]

theorem exists_file_finish
    (read : analysis.OfSources extractions)
    {extraction : Extraction} (member : extraction ∈ extractions) :
    ∃ file ∈ (finish (fileTable extractions)).files, file.key = extraction.file.key := by
  have held := kindAt_finish read member
  rw [← RecordTable.mem_fileKeys_iff_kindAt] at held
  exact List.mem_map.1 held

theorem coherent_finish
    (read : analysis.OfSources extractions) :
    Coherent (finish (fileTable extractions)) := by
  have each : ∀ former ∈ (filled extractions).entities,
      ∃ extraction ∈ extractions, BelongsTo former extraction.file := fun former isFormer =>
    belongsTo_of_mem read (mem_entitiesOf_of_filled (RecordTable.entity?_eq_some_iff.1
      (RecordTable.mem_entities.1 isFormer)).1)
  refine ⟨RecordTable.wellKeyed _, ?owned, ?fileDependencies, ?dependencies, ?inheritance⟩
  case owned =>
    intro entity stored
    rw [entities_finish] at stored
    obtain ⟨former, isFormer, rfl⟩ := List.mem_map.1 stored
    obtain ⟨extraction, member, belongs⟩ := each former isFormer
    obtain ⟨file, isFile, isKey⟩ := exists_file_finish read member
    exact ⟨file, isFile, isKey.trans belongs.fileKey.symm⟩
  case fileDependencies =>
    intro file stored
    rw [finish_eq, inferUsages, RecordTable.files_mapEntities, settled, Curation.curateTable,
      RecordTable.files_mapFiles] at stored
    obtain ⟨former, _, rfl⟩ := List.mem_map.1 stored
    exact nodup_addAllOnce _ List.nodup_nil
  case dependencies =>
    intro entity stored
    rw [entities_finish] at stored
    obtain ⟨former, isFormer, rfl⟩ := List.mem_map.1 stored
    obtain ⟨_, _, belongs⟩ := each former isFormer
    exact nodup_addAllOnce _ belongs.dependencies
  case inheritance =>
    intro entity stored
    rw [entities_finish] at stored
    obtain ⟨former, isFormer, rfl⟩ := List.mem_map.1 stored
    obtain ⟨_, _, belongs⟩ := each former isFormer
    exact belongs.inheritance

end

theorem isSome_extract? {analysis : Analysis} {source : SourceFile} {language : Language}
    (known : source.language? = some language)
    (wanted : language = .scene → analysis.includeScenes = true) :
    (analysis.extract? source).isSome = true := by
  unfold extract?
  rw [known]
  cases language with
  | script => rfl
  | scene => simp [wanted rfl]

theorem coherent_run (analysis : Analysis) (sources : List SourceFile) :
    Coherent (analysis.run sources).table := by
  rw [table_run]
  exact coherent_finish (ofSources_filterMap analysis sources)

/-- Referential integrity of every run. Every source that is read keeps a file under its key, since
no file is ever refused, every class has its file, type usages add names of other classes only, and
no list of dependencies or parents names anything twice. -/
theorem run_referential_integrity (analysis : Analysis) (sources : List SourceFile) :
    Coherent (analysis.run sources).table ∧
      (∀ earlier extraction later,
        sources.filterMap analysis.extract? = earlier ++ extraction :: later →
          (fileTable earlier).accepts (.file extraction.file) = true) ∧
      (∀ source ∈ sources, ∀ language, source.language? = some language →
        (language = .scene → analysis.includeScenes = true) →
          ∃ file ∈ (analysis.run sources).table.files, file.key = analysis.keyFor source) ∧
      (analysis.run sources).table =
        inferUsages (settled (sources.filterMap analysis.extract?)) ∧
      ∀ entity ∈ (analysis.run sources).table.entities,
        ∃ former ∈ (settled (sources.filterMap analysis.extract?)).entities, ∃ added,
          entity = { former with dependencies := former.dependencies ++ added } ∧
            ∀ name ∈ added, ∃ other ∈ (analysis.run sources).table.entities,
              other.uniqueName = name ∧ other.uniqueName ≠ entity.uniqueName := by
  have read := ofSources_filterMap analysis sources
  refine ⟨coherent_run analysis sources, ?_, ?_, ?_, ?_⟩
  · intro earlier extraction later split
    rw [split] at read
    obtain ⟨source, found⟩ := read extraction (by simp)
    exact accepts_file (fun other inEarlier => read other (by simp [inEarlier])) found
  · intro source member language known wanted
    obtain ⟨extraction, found⟩ := Option.isSome_iff_exists.1 (isSome_extract? known wanted)
    rw [table_run, ← (extracted_of_extract? found).key]
    exact exists_file_finish read (List.mem_filterMap.2 ⟨source, member, found⟩)
  · rw [table_run, finish_eq]
  · intro entity stored
    rw [table_run, finish_eq] at stored ⊢
    exact exists_added_of_inferUsages stored

end Analysis

end GodotGraph
