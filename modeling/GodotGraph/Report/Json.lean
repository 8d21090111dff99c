import GodotGraph.Report
import GodotGraph.Text.JsonText
import GodotGraph.Text.Numeral

/-!
Contract: reports for other programs, as JSON.

Owns: the names and the order of the fields, and reading a report back.

The parts of a report are read from objects, or from lists with the values of all fields
in order.
-/

set_option autoImplicit false

namespace GodotGraph.Report

open Text (JsonValue)

/-- The name of a language in a report. -/
def languageTag : Language → String
  | .script => "gd_script"
  | .scene => "godot_scene"

def FileEntry.json (file : FileEntry) : JsonValue :=
  .fields [
    ("key", .text file.key),
    ("path", .text file.path),
    ("language", .text (languageTag file.language)),
    ("module_name", .ofOption .text file.moduleName),
    ("resolved_dependencies", .texts file.resolved),
    ("unresolved_dependencies", .texts file.unresolved)]

def EntityEntry.json (entity : EntityEntry) : JsonValue :=
  .fields [
    ("unique_name", .text entity.uniqueName),
    ("local_name", .text entity.localName),
    ("module_name", .ofOption .text entity.moduleName),
    ("file", .text entity.fileKey),
    ("inheritance", .texts entity.inheritance),
    ("resolved_dependencies", .texts entity.resolved),
    ("unresolved_dependencies", .texts entity.unresolved)]

def Summary.json (summary : Summary) : JsonValue :=
  .fields [
    ("total_files", .number summary.totalFiles),
    ("gdscript_files", .number summary.scriptFiles),
    ("scene_files", .number summary.sceneFiles),
    ("total_entities", .number summary.totalEntities),
    ("total_dependencies", .number summary.totalDependencies),
    ("resolved_dependencies", .number summary.resolvedDependencies),
    ("unresolved_dependencies", .number summary.unresolvedDependencies),
    ("parsing_hits", .number summary.hits),
    ("parsing_misses", .number summary.misses),
    ("scan_duration", .fields [
      ("secs", .number summary.scanDuration.seconds),
      ("nanos", .number summary.scanDuration.nanos)]),
    ("errors_encountered", .number summary.errors),
    ("warnings_count", .number summary.warnings),
    ("critical_errors_count", .number summary.criticalErrors),
    ("timestamp", .text summary.timestamp.text)]

def ErrorEntry.json (entry : ErrorEntry) : JsonValue :=
  .fields [
    ("path", .text entry.path),
    ("error", .text entry.message),
    ("severity", .text entry.severity.title)]

def json (report : Report) : JsonValue :=
  .fields [
    ("source_root", .text report.sourceRoot),
    ("files", .items (report.files.map FileEntry.json)),
    ("entities", .items (report.entities.map EntityEntry.json)),
    ("summary", report.summary.json),
    ("errors", .items (report.errors.map ErrorEntry.json))]

/-- The report as text, on one line or indented. -/
def jsonText (layout : JsonValue.Layout) (report : Report) : String :=
  report.json.write layout

/-! ## Reading -/

def language? (value : JsonValue) : Option Language := do
  let tag ← value.name?
  [Language.script, .scene].find? fun language => languageTag language = tag

def severity? (value : JsonValue) : Option Severity := do
  let title ← value.name?
  [Severity.warning, .error, .critical].find? fun severity => severity.title = title

/-- A duration, and nothing else. A billion nanoseconds make a second. The seconds fit
into a machine word, the nanoseconds into half of one. -/
def duration? (value : JsonValue) : Option Duration := do
  let names := ["secs", "nanos"]
  let value ← value.record? names
  let nanos ← (value.field "nanos").number?
  let seconds := (← (value.field "secs").number?) + nanos / 1000000000
  if value.hasOnly names && nanos < Nat.pow 2 32 && seconds < Text.wordLimit then
    some ⟨seconds, nanos % 1000000000⟩
  else none

def names? (name : String) (value : JsonValue) : Option (List String) :=
  (value.field name).items? JsonValue.text?

def FileEntry.ofJson? (value : JsonValue) : Option FileEntry := do
  let value ← value.record?
    ["key", "path", "language", "module_name", "resolved_dependencies",
      "unresolved_dependencies"]
  return {
    key := ← (value.field "key").text?
    path := ← (value.field "path").text?
    language := ← language? (value.field "language")
    moduleName := ← (value.field "module_name").optional? JsonValue.text?
    resolved := ← names? "resolved_dependencies" value
    unresolved := ← names? "unresolved_dependencies" value }

def EntityEntry.ofJson? (value : JsonValue) : Option EntityEntry := do
  let value ← value.record?
    ["unique_name", "local_name", "module_name", "file", "inheritance",
      "resolved_dependencies", "unresolved_dependencies"]
  return {
    uniqueName := ← (value.field "unique_name").text?
    localName := ← (value.field "local_name").text?
    moduleName := ← (value.field "module_name").optional? JsonValue.text?
    fileKey := ← (value.field "file").text?
    inheritance := ← names? "inheritance" value
    resolved := ← names? "resolved_dependencies" value
    unresolved := ← names? "unresolved_dependencies" value }

def Summary.ofJson? (value : JsonValue) : Option Summary := do
  let value ← value.record?
    ["total_files", "gdscript_files", "scene_files", "total_entities", "total_dependencies",
      "resolved_dependencies", "unresolved_dependencies", "parsing_hits", "parsing_misses",
      "scan_duration", "errors_encountered", "warnings_count", "critical_errors_count",
      "timestamp"]
  let number (name : String) := (value.field name).number?
  return {
    totalFiles := ← number "total_files"
    scriptFiles := ← number "gdscript_files"
    sceneFiles := ← number "scene_files"
    totalEntities := ← number "total_entities"
    totalDependencies := ← number "total_dependencies"
    resolvedDependencies := ← number "resolved_dependencies"
    unresolvedDependencies := ← number "unresolved_dependencies"
    hits := ← number "parsing_hits"
    misses := ← number "parsing_misses"
    scanDuration := ← duration? (value.field "scan_duration")
    errors := ← number "errors_encountered"
    warnings := ← number "warnings_count"
    criticalErrors := ← number "critical_errors_count"
    timestamp := ← (← (value.field "timestamp").text?) |> Timestamp.ofText? .loose }

def ErrorEntry.ofJson? (value : JsonValue) : Option ErrorEntry := do
  let value ← value.record? ["path", "error", "severity"]
  return {
    path := ← (value.field "path").text?
    message := ← (value.field "error").text?
    severity := ← severity? (value.field "severity") }

def ofJson? (value : JsonValue) : Option Report := do
  let value ← value.record? ["source_root", "files", "entities", "summary", "errors"]
  return {
    sourceRoot := ← (value.field "source_root").text?
    files := ← (value.field "files").items? FileEntry.ofJson?
    entities := ← (value.field "entities").items? EntityEntry.ofJson?
    summary := ← Summary.ofJson? (value.field "summary")
    errors := ← (value.field "errors").items? ErrorEntry.ofJson? }

/-- A list of texts is read back as it was. -/
theorem items?_texts (values : List String) :
    (JsonValue.texts values).items? JsonValue.text? = some values := by
  simp only [JsonValue.texts, JsonValue.items?]
  induction values with
  | nil => rfl
  | cons value rest inductionHypothesis =>
      simp [List.mapM_cons, inductionHypothesis, JsonValue.text?]

/-- An error entry is read back as it was. -/
theorem ErrorEntry.ofJson?_json (entry : ErrorEntry) : ofJson? entry.json = some entry := by
  obtain ⟨path, message, severity⟩ := entry
  cases severity <;> rfl

end GodotGraph.Report
