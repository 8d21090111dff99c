import GodotGraph.Proofs.Analysis.Integrity
import GodotGraph.Report

/-!
Contract: what the report on a run tells of its table.

Owns:
- the split of a dependency list into keys of the table and other names;
- the edges of a table, and those of a report beside them;
- the figures of a report as numbers of edges.

Whether an edge is resolved is found in the table for dependencies and in the entries of the
report for parents. Both ask for a key of the table.
-/

set_option autoImplicit false

namespace GodotGraph

/-- The keys of all records, ascending. -/
def RecordTable.keys (table : RecordTable) : List String :=
  table.records.map Record.key

namespace Report

/-! ## Keys -/

theorem contains_eq_true_iff {table : RecordTable} {name : String} :
    table.contains name = true ↔ name ∈ table.keys := by
  rw [RecordTable.contains, Option.isSome_iff_exists, RecordTable.keys, List.mem_map]
  simp only [RecordTable.get?_eq_some_iff]

section

variable (run : Analysis.Run) (duration : Duration) (timestamp : Timestamp)

theorem files_ofRun :
    (ofRun run duration timestamp).files = run.table.files.map (FileEntry.ofRecord run.table) :=
  rfl

theorem entities_ofRun :
    (ofRun run duration timestamp).entities =
      run.table.entities.map (EntityEntry.ofRecord run.table) :=
  rfl

theorem fileKeys_ofRun :
    ((ofRun run duration timestamp).files.map fun entry => entry.key) = run.table.fileKeys := by
  rw [files_ofRun, List.map_map]
  rfl

theorem entityKeys_ofRun :
    ((ofRun run duration timestamp).entities.map fun entry => entry.uniqueName) =
      run.table.entityKeys := by
  rw [entities_ofRun, List.map_map]
  rfl

/-- The entries of a report name the same keys as the table. -/
theorem knows_ofRun (name : String) :
    (ofRun run duration timestamp).knows name = run.table.contains name := by
  rw [Bool.eq_iff_iff, contains_eq_true_iff, RecordTable.keys,
    ← run.table.fileKeys_append_entityKeys_perm.mem_iff, List.mem_append, or_comm,
    ← fileKeys_ofRun run duration timestamp, ← entityKeys_ofRun run duration timestamp]
  simp [knows]

end

/-! ## Entries -/

/-- The names of a list in two parts, each in the order of the list: keys of the table, and all
others. -/
structure Splits (table : RecordTable) (names resolved unresolved : List String) : Prop where
  resolvedSublist : resolved.Sublist names
  unresolvedSublist : unresolved.Sublist names
  perm : (resolved ++ unresolved).Perm names
  known : ∀ name ∈ resolved, name ∈ table.keys
  unknown : ∀ name ∈ unresolved, name ∉ table.keys

theorem splits (table : RecordTable) (names : List String) :
    Splits table names (names.filter table.contains)
      (names.filter fun name => !table.contains name) where
  resolvedSublist := List.filter_sublist
  unresolvedSublist := List.filter_sublist
  perm := List.filter_append_perm table.contains names
  known := fun _ member => contains_eq_true_iff.1 (List.mem_filter.1 member).2
  unknown := by
    intro name member isKey
    have absent := (List.mem_filter.1 member).2
    rw [contains_eq_true_iff.2 isKey] at absent
    cases absent

/-- The entry says what the record of a file says. -/
structure FileEntry.Tells (table : RecordTable) (entry : FileEntry) (file : FileRecord) :
    Prop where
  key : entry.key = file.key
  path : entry.path = file.path
  language : entry.language = file.language
  moduleName : entry.moduleName.getD "" = file.moduleName
  dependencies : Splits table file.dependencies entry.resolved entry.unresolved

/-- The entry says what the record of an entity says. -/
structure EntityEntry.Tells (table : RecordTable) (entry : EntityEntry) (entity : EntityRecord) :
    Prop where
  uniqueName : entry.uniqueName = entity.uniqueName
  localName : entry.localName = entity.localName
  moduleName : entry.moduleName.getD "" = entity.moduleName
  fileKey : entry.fileKey = entity.fileKey
  inheritance : entry.inheritance = entity.inheritance
  dependencies : Splits table entity.dependencies entry.resolved entry.unresolved

theorem getD_nonEmpty? (name : String) : (nonEmpty? name).getD "" = name := by
  unfold nonEmpty?
  split
  · next empty => exact empty.symm
  · rfl

theorem FileEntry.tells_ofRecord (table : RecordTable) (file : FileRecord) :
    FileEntry.Tells table (ofRecord table file) file :=
  ⟨rfl, rfl, rfl, getD_nonEmpty? _, splits table _⟩

theorem EntityEntry.tells_ofRecord (table : RecordTable) (entity : EntityRecord) :
    EntityEntry.Tells table (ofRecord table entity) entity :=
  ⟨rfl, rfl, getD_nonEmpty? _, rfl, rfl, splits table _⟩

/-! ## Edges -/

/-- One edge for each dependency. -/
def dependencyGraph (table : RecordTable) (source sourceKind : String) (names : List String) :
    List Edge :=
  names.map fun target => ⟨source, sourceKind, target, .dependency, table.contains target⟩

/-- One edge for each parent. -/
def inheritanceGraph (table : RecordTable) (entity : EntityRecord) : List Edge :=
  entity.inheritance.map fun parent =>
    ⟨entity.uniqueName, "entity", parent, .inheritance, table.contains parent⟩

/-- One edge for each dependency of a file, each dependency of an entity, and each parent. -/
def graph (table : RecordTable) : List Edge :=
  table.files.flatMap (fun file => dependencyGraph table file.key "file" file.dependencies) ++
    table.entities.flatMap fun entity => inheritanceGraph table entity ++
      dependencyGraph table entity.uniqueName "entity" entity.dependencies

theorem dependencyEdges_perm (table : RecordTable) (source sourceKind : String)
    (names : List String) :
    (dependencyEdges source sourceKind (names.filter table.contains)
      (names.filter fun name => !table.contains name)).Perm
        (dependencyGraph table source sourceKind names) := by
  have parts := (List.filter_append_perm table.contains names).map fun target =>
    (⟨source, sourceKind, target, .dependency, table.contains target⟩ : Edge)
  rw [List.map_append] at parts
  refine List.Perm.trans (List.Perm.of_eq ?_) parts
  rw [dependencyEdges]
  congr 1
  · exact List.map_congr_left fun name member => by rw [(List.mem_filter.1 member).2]
  · refine List.map_congr_left fun name member => ?_
    have absent : table.contains name = false := by simpa using (List.mem_filter.1 member).2
    rw [absent]

/-- The edges of the report on a run are those of its table. -/
theorem edges_ofRun_perm (run : Analysis.Run) (duration : Duration) (timestamp : Timestamp) :
    (ofRun run duration timestamp).edges.Perm (graph run.table) := by
  rw [edges, graph, files_ofRun, entities_ofRun, List.flatMap_map, List.flatMap_map]
  refine List.Perm.append ?_ ?_
  · exact List.Perm.flatMap_left _ fun file _ =>
      dependencyEdges_perm run.table file.key "file" file.dependencies
  · refine List.Perm.flatMap_left _ fun entity _ => ?_
    rw [entityEdges]
    refine List.Perm.append (List.Perm.of_eq ?_)
      (dependencyEdges_perm run.table entity.uniqueName "entity" entity.dependencies)
    exact List.map_congr_left fun parent _ => by rw [knows_ofRun]; rfl

/-- An edge of a table is resolved if it ends in a key. -/
theorem resolved_of_mem_graph {table : RecordTable} {edge : Edge} (member : edge ∈ graph table) :
    edge.resolved = table.contains edge.target := by
  rcases List.mem_append.1 member with ofFile | ofEntity
  · obtain ⟨file, _, isEdge⟩ := List.mem_flatMap.1 ofFile
    obtain ⟨target, _, rfl⟩ := List.mem_map.1 isEdge
    rfl
  · obtain ⟨entity, _, isEdge⟩ := List.mem_flatMap.1 ofEntity
    rcases List.mem_append.1 isEdge with toParent | toDependency
    · obtain ⟨parent, _, rfl⟩ := List.mem_map.1 toParent
      rfl
    · obtain ⟨target, _, rfl⟩ := List.mem_map.1 toDependency
      rfl

theorem nodup_dependencyGraph (table : RecordTable) (source sourceKind : String)
    {names : List String} (distinct : names.Nodup) :
    (dependencyGraph table source sourceKind names).Nodup :=
  distinct.map fun _ _ same => congrArg Edge.target same

theorem nodup_inheritanceGraph (table : RecordTable) {entity : EntityRecord}
    (distinct : entity.inheritance.Nodup) : (inheritanceGraph table entity).Nodup :=
  distinct.map fun _ _ same => congrArg Edge.target same

theorem source_of_mem_dependencyGraph {table : RecordTable} {source sourceKind : String}
    {names : List String} {edge : Edge}
    (member : edge ∈ dependencyGraph table source sourceKind names) :
    edge.source = source ∧ edge.sourceKind = sourceKind ∧ edge.kind = .dependency := by
  obtain ⟨target, _, rfl⟩ := List.mem_map.1 member
  exact ⟨rfl, rfl, rfl⟩

theorem source_of_mem_inheritanceGraph {table : RecordTable} {entity : EntityRecord} {edge : Edge}
    (member : edge ∈ inheritanceGraph table entity) :
    edge.source = entity.uniqueName ∧ edge.sourceKind = "entity" ∧ edge.kind = .inheritance := by
  obtain ⟨target, _, rfl⟩ := List.mem_map.1 member
  exact ⟨rfl, rfl, rfl⟩

/-- Edges from different keys are different. -/
theorem nodup_flatMap_of_source {Source : Type} {sources : List Source} {key : Source → String}
    (apart : (sources.map key).Pairwise (· < ·)) {outgoing : Source → List Edge}
    (distinct : ∀ source ∈ sources, (outgoing source).Nodup)
    (starts : ∀ source ∈ sources, ∀ edge ∈ outgoing source, edge.source = key source) :
    (sources.flatMap outgoing).Nodup := by
  refine List.nodup_flatMap.2 ⟨distinct, ?_⟩
  refine (List.pairwise_map.1 apart).imp_of_mem ?_
  intro left right isLeft isRight before edge fromLeft fromRight
  have same := (starts left isLeft edge fromLeft).symm.trans (starts right isRight edge fromRight)
  exact Std.ne_of_lt before same

/-- No edge of a coherent table is there twice. -/
theorem nodup_graph {table : RecordTable} (coherent : Analysis.Coherent table) :
    (graph table).Nodup := by
  have files : (table.files.flatMap fun file =>
      dependencyGraph table file.key "file" file.dependencies).Nodup :=
    nodup_flatMap_of_source table.pairwise_fileKeys
      (fun file stored => nodup_dependencyGraph table _ _ (coherent.fileDependencies file stored))
      fun file _ edge member => (source_of_mem_dependencyGraph member).1
  have entities : (table.entities.flatMap fun entity => inheritanceGraph table entity ++
      dependencyGraph table entity.uniqueName "entity" entity.dependencies).Nodup := by
    refine nodup_flatMap_of_source table.pairwise_entityKeys ?_ ?_
    · intro entity stored
      refine List.nodup_append.2 ⟨nodup_inheritanceGraph table (coherent.inheritance entity stored),
        nodup_dependencyGraph table _ _ (coherent.dependencies entity stored), ?_⟩
      rintro edge toParent other toDependency rfl
      have kinds := (source_of_mem_inheritanceGraph toParent).2.2.symm.trans
        (source_of_mem_dependencyGraph toDependency).2.2
      cases kinds
    · intro entity _ edge member
      rcases List.mem_append.1 member with toParent | toDependency
      · exact (source_of_mem_inheritanceGraph toParent).1
      · exact (source_of_mem_dependencyGraph toDependency).1
  refine List.nodup_append.2 ⟨files, entities, ?_⟩
  rintro edge ofFile other ofEntity rfl
  obtain ⟨file, _, isFileEdge⟩ := List.mem_flatMap.1 ofFile
  obtain ⟨entity, _, isEntityEdge⟩ := List.mem_flatMap.1 ofEntity
  have isFile := (source_of_mem_dependencyGraph isFileEdge).2.1
  have isEntity : edge.sourceKind = "entity" := by
    rcases List.mem_append.1 isEntityEdge with toParent | toDependency
    · exact (source_of_mem_inheritanceGraph toParent).2.1
    · exact (source_of_mem_dependencyGraph toDependency).2.1
  exact absurd (isFile.symm.trans isEntity) (by decide)

/-! ## Figures -/

/-- The edge stands for a dependency with the given flag. -/
def Edge.isDependency (edge : Edge) (resolved : Bool) : Bool :=
  edge.kind = .dependency && edge.resolved = resolved

theorem countP_dependencyEdges (source sourceKind : String) (resolved unresolved : List String) :
    (dependencyEdges source sourceKind resolved unresolved).countP (·.isDependency true) =
        resolved.length ∧
      (dependencyEdges source sourceKind resolved unresolved).countP (·.isDependency false) =
        unresolved.length := by
  simp [dependencyEdges, List.countP_append, List.countP_map, Function.comp_def, Edge.isDependency]

theorem countP_entityEdges (report : Report) (entity : EntityEntry) :
    (report.entityEdges entity).countP (·.isDependency true) = entity.resolved.length ∧
      (report.entityEdges entity).countP (·.isDependency false) = entity.unresolved.length := by
  have none : ∀ flag, (entity.inheritance.map fun parent =>
      (⟨entity.uniqueName, "entity", parent, .inheritance, report.knows parent⟩ : Edge)).countP
        (·.isDependency flag) = 0 := by
    intro flag
    simp [List.countP_map, Function.comp_def, Edge.isDependency]
  rw [entityEdges, List.countP_append, List.countP_append, none, none, Nat.zero_add, Nat.zero_add]
  exact countP_dependencyEdges _ _ _ _

/-- The figures count the dependency edges of a report. -/
theorem countP_edges (report : Report) :
    report.edges.countP (·.isDependency true) = resolvedCount report.files report.entities ∧
      report.edges.countP (·.isDependency false) =
        unresolvedCount report.files report.entities := by
  simp only [edges, resolvedCount, unresolvedCount, List.countP_append, List.countP_flatMap,
    List.length_flatMap, Function.comp_def, fileEdges, countP_dependencyEdges, countP_entityEdges,
    and_self]

theorem countP_kind_eq (edges : List Edge) :
    (edges.countP fun edge => edge.kind = .dependency) =
      edges.countP (·.isDependency true) + edges.countP (·.isDependency false) := by
  rw [List.countP_eq_countP_filter_add edges _ Edge.resolved, List.countP_filter,
    List.countP_filter]
  congr 1
  all_goals
    refine List.countP_congr fun edge _ => ?_
    simp [Edge.isDependency]

/-- Every file is a script or a scene. -/
theorem countP_language (files : List FileEntry) :
    (files.countP fun entry => entry.language = .script) +
      (files.countP fun entry => entry.language = .scene) = files.length := by
  rw [List.length_eq_countP_add_countP (fun entry : FileEntry => entry.language = .script)]
  congr 1
  refine List.countP_congr fun entry _ => ?_
  cases entry.language <;> simp

/-- What a report tells of a table. -/
structure Tells (report : Report) (table : RecordTable) : Prop where
  /-- Every record has one entry, in the order of the keys. -/
  files : List.Forall₂ (FileEntry.Tells table) report.files table.files
  entities : List.Forall₂ (EntityEntry.Tells table) report.entities table.entities
  fileOrder : (report.files.map fun entry => entry.key).Pairwise (· < ·)
  entityOrder : (report.entities.map fun entry => entry.uniqueName).Pairwise (· < ·)
  /-- There is one edge for each dependency and each parent, and no edge is there twice. -/
  edges : report.edges.Perm (graph table)
  distinct : report.edges.Nodup
  resolved : ∀ edge ∈ report.edges, edge.resolved = true ↔ edge.target ∈ table.keys
  /-- The figures are numbers of such edges, and of files. -/
  resolvedCount : report.summary.resolvedDependencies = report.edges.countP (·.isDependency true)
  unresolvedCount :
    report.summary.unresolvedDependencies = report.edges.countP (·.isDependency false)
  totalCount : report.summary.totalDependencies =
    report.edges.countP fun edge => edge.kind = .dependency
  scriptCount : report.summary.scriptFiles =
    report.files.countP fun entry => entry.language = .script
  sceneCount : report.summary.sceneFiles =
    report.files.countP fun entry => entry.language = .scene
  fileCount : report.summary.scriptFiles + report.summary.sceneFiles = report.summary.totalFiles
  totalFiles : report.summary.totalFiles = table.files.length

theorem tells_of_coherent {run : Analysis.Run} (coherent : Analysis.Coherent run.table)
    (duration : Duration) (timestamp : Timestamp) :
    (ofRun run duration timestamp).Tells run.table := by
  have edges := edges_ofRun_perm run duration timestamp
  have counted := (ofRun run duration timestamp).countP_edges
  have total := countP_kind_eq (ofRun run duration timestamp).edges
  rw [counted.1, counted.2] at total
  have languages := countP_language (ofRun run duration timestamp).files
  have scripts : (ofRun run duration timestamp).summary.scriptFiles =
      (ofRun run duration timestamp).files.countP fun entry => entry.language = .script := rfl
  have scenes : (ofRun run duration timestamp).summary.sceneFiles =
      (ofRun run duration timestamp).files.length - (ofRun run duration timestamp).files.countP
        fun entry => entry.language = .script := rfl
  have files : (ofRun run duration timestamp).summary.totalFiles =
      (ofRun run duration timestamp).files.length := rfl
  refine ⟨?files, ?entities, ?fileOrder, ?entityOrder, edges,
    edges.nodup_iff.2 (nodup_graph coherent), ?resolved, counted.1.symm, counted.2.symm,
    total.symm, scripts, by omega, by omega, ?totalFiles⟩
  case files =>
    rw [files_ofRun, List.forall₂_map_left_iff, List.forall₂_same]
    exact fun file _ => FileEntry.tells_ofRecord run.table file
  case entities =>
    rw [entities_ofRun, List.forall₂_map_left_iff, List.forall₂_same]
    exact fun entity _ => EntityEntry.tells_ofRecord run.table entity
  case fileOrder =>
    rw [fileKeys_ofRun]
    exact run.table.pairwise_fileKeys
  case entityOrder =>
    rw [entityKeys_ofRun]
    exact run.table.pairwise_entityKeys
  case resolved =>
    intro edge member
    rw [resolved_of_mem_graph (edges.mem_iff.1 member), contains_eq_true_iff]
  case totalFiles => rw [files, files_ofRun, List.length_map]

/-- The report on a run tells what its table holds. -/
theorem ofRun_tells (analysis : Analysis) (sources : List SourceFile) (duration : Duration)
    (timestamp : Timestamp) :
    (ofRun (analysis.run sources) duration timestamp).Tells (analysis.run sources).table :=
  tells_of_coherent (analysis.coherent_run sources) duration timestamp

end Report

end GodotGraph
