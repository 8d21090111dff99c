import GodotGraph.Analysis
import GodotGraph.Problem
import GodotGraph.Report.Summary

/-!
Contract: the report on an analysis.

Owns:
- the entries for files, entities and errors;
- the report of a run, with dependencies split into known and external ones;
- adding errors, and counting everything again;
- the edges of the dependency graph.

Does not own: how a report is written.
-/

set_option autoImplicit false

namespace GodotGraph

structure Report.FileEntry where
  key : String
  path : String
  language : Language
  moduleName : Option String
  resolved : List String
  unresolved : List String
  deriving DecidableEq, Repr

structure Report.EntityEntry where
  uniqueName : String
  localName : String
  moduleName : Option String
  fileKey : String
  inheritance : List String
  resolved : List String
  unresolved : List String
  deriving DecidableEq, Repr

/-- An error and the path that it is about. -/
structure Report.ErrorEntry where
  path : String
  message : String
  severity : Severity
  deriving DecidableEq, Repr

structure Report where
  sourceRoot : String
  files : List Report.FileEntry
  entities : List Report.EntityEntry
  summary : Report.Summary
  errors : List Report.ErrorEntry
  deriving DecidableEq, Repr

namespace Report

def empty (timestamp : Timestamp) : Report :=
  ⟨"", [], [], Summary.empty timestamp, []⟩

/-! ## Entries -/

def nonEmpty? (name : String) : Option String :=
  if name = "" then none else some name

/-- The entry of a file. A dependency is resolved if it is a key of the table. -/
def FileEntry.ofRecord (table : RecordTable) (file : FileRecord) : FileEntry where
  key := file.key
  path := file.path
  language := file.language
  moduleName := nonEmpty? file.moduleName
  resolved := file.dependencies.filter table.contains
  unresolved := file.dependencies.filter fun name => !table.contains name

def EntityEntry.ofRecord (table : RecordTable) (entity : EntityRecord) : EntityEntry where
  uniqueName := entity.uniqueName
  localName := entity.localName
  moduleName := nonEmpty? entity.moduleName
  fileKey := entity.fileKey
  inheritance := entity.inheritance
  resolved := entity.dependencies.filter table.contains
  unresolved := entity.dependencies.filter fun name => !table.contains name

def ErrorEntry.ofProblem (path : String) (problem : Problem) : ErrorEntry :=
  ⟨path, problem.userMessage, problem.severity⟩

/-! ## Counting -/

def errorCount (severity : Severity) (errors : List ErrorEntry) : Nat :=
  errors.countP fun entry => entry.severity = severity

def resolvedCount (files : List FileEntry) (entities : List EntityEntry) : Nat :=
  (files.flatMap fun file => file.resolved).length +
    (entities.flatMap fun entity => entity.resolved).length

def unresolvedCount (files : List FileEntry) (entities : List EntityEntry) : Nat :=
  (files.flatMap fun file => file.unresolved).length +
    (entities.flatMap fun entity => entity.unresolved).length

/-- The report with all its entries counted again. What the run itself counted stays. -/
def finalize (report : Report) : Report :=
  let scripts := report.files.countP fun file => file.language = .script
  let resolved := resolvedCount report.files report.entities
  let unresolved := unresolvedCount report.files report.entities
  { report with summary :=
    { report.summary with
      totalFiles := report.files.length
      scriptFiles := scripts
      sceneFiles := report.files.length - scripts
      totalEntities := report.entities.length
      totalDependencies := resolved + unresolved
      resolvedDependencies := resolved
      unresolvedDependencies := unresolved
      errors := report.errors.length
      warnings := errorCount .warning report.errors
      criticalErrors := errorCount .critical report.errors } }

/-! ## Building -/

def ofRun (run : Analysis.Run) (duration : Duration) (timestamp : Timestamp) : Report :=
  let summary := Summary.empty timestamp
  finalize
    { sourceRoot := run.sourceRoot
      files := run.table.files.map (FileEntry.ofRecord run.table)
      entities := run.table.entities.map (EntityEntry.ofRecord run.table)
      summary :=
        { summary with
          hits := run.tally.hits
          misses := run.tally.misses
          scanDuration := duration }
      errors := [] }

def Summary.countError (summary : Summary) (severity : Severity) : Summary :=
  { summary with
    errors := summary.errors + 1
    warnings := summary.warnings + (if severity = .warning then 1 else 0)
    criticalErrors := summary.criticalErrors + (if severity = .critical then 1 else 0) }

/-- The report with one more error, already counted. -/
def addError (report : Report) (entry : ErrorEntry) : Report :=
  { report with
    errors := report.errors ++ [entry]
    summary := report.summary.countError entry.severity }

def addProblem (report : Report) (path : String) (problem : Problem) : Report :=
  report.addError (ErrorEntry.ofProblem path problem)

/-! ## Errors -/

/-- The errors that should have ended all work. -/
def criticalErrors (report : Report) : List ErrorEntry :=
  report.errors.filter fun entry => entry.severity = .critical

def hasCriticalErrors (report : Report) : Bool :=
  report.errors.any fun entry => entry.severity = .critical

def exitCode (report : Report) : Nat :=
  if report.hasCriticalErrors then 2 else 0

/-! ## Edges -/

/-- What an edge says about its ends. -/
inductive EdgeKind where
  | dependency
  | inheritance
  deriving DecidableEq, Repr

def EdgeKind.text : EdgeKind → String
  | dependency => "dependency"
  | inheritance => "inheritance"

structure Edge where
  source : String
  sourceKind : String
  target : String
  kind : EdgeKind
  resolved : Bool
  deriving DecidableEq, Repr

/-- Dependency edges from one source, the resolved ones first. -/
def dependencyEdges (source sourceKind : String) (resolved unresolved : List String) : List Edge :=
  (resolved.map fun target => ⟨source, sourceKind, target, .dependency, true⟩) ++
    unresolved.map fun target => ⟨source, sourceKind, target, .dependency, false⟩

/-- The name is that of an entry. -/
def knows (report : Report) (name : String) : Bool :=
  (report.entities.any fun entity => entity.uniqueName = name) ||
    report.files.any fun file => file.key = name

def fileEdges (file : FileEntry) : List Edge :=
  dependencyEdges file.key "file" file.resolved file.unresolved

/-- The edges from an entity, to its parents first. -/
def entityEdges (report : Report) (entity : EntityEntry) : List Edge :=
  (entity.inheritance.map fun parent =>
      ⟨entity.uniqueName, "entity", parent, .inheritance, report.knows parent⟩) ++
    dependencyEdges entity.uniqueName "entity" entity.resolved entity.unresolved

/-- All edges, those from files first. -/
def edges (report : Report) : List Edge :=
  report.files.flatMap fileEdges ++ report.entities.flatMap report.entityEdges

/-- A report has critical errors exactly if it lists some. -/
theorem hasCriticalErrors_iff (report : Report) :
    report.hasCriticalErrors = true ↔ report.criticalErrors ≠ [] := by
  simp [hasCriticalErrors, criticalErrors, List.filter_eq_nil_iff]

end Report

end GodotGraph
