import GodotGraph.Settings.Layer
import GodotGraph.Text.JsonText

/-!
Contract: settings as JSON.

Owns: the names of the fields, and reading layers back.

A field that is absent leaves its setting open. In place of an object there may be a list
with the values of all fields in order.
-/

set_option autoImplicit false

namespace GodotGraph.Settings

open Text (JsonValue)

def Layer.json (layer : Layer) : JsonValue :=
  .fields [
    ("source_path", .ofOption .text layer.sourcePath),
    ("exclude_patterns", .ofOption .texts layer.exclude),
    ("max_depth", .ofOption .number layer.maxDepth),
    ("follow_links", .ofOption .boolean layer.followLinks),
    ("output_format", .ofOption (fun format => .text format.name) layer.format),
    ("output_file", .ofOption .text layer.outputFile),
    ("quiet", .ofOption .boolean layer.quiet),
    ("verbose", .ofOption .boolean layer.verbose),
    ("use_colors", .ofOption .boolean layer.colors),
    ("parallel", .ofOption .boolean layer.parallel),
    ("show_progress", .ofOption .boolean layer.showProgress),
    ("include_scenes", .ofOption .boolean layer.includeScenes),
    ("log_level", .ofOption .text layer.logLevel)]

/-- The layer that decides all settings. -/
def toLayer (settings : Settings) : Layer where
  sourcePath := some settings.sourcePath
  exclude := some settings.exclude
  maxDepth := settings.maxDepth
  followLinks := some settings.followLinks
  format := some settings.format
  outputFile := settings.outputFile
  quiet := some settings.quiet
  verbose := some settings.verbose
  colors := some settings.colors
  parallel := some settings.parallel
  showProgress := some settings.showProgress
  includeScenes := some settings.includeScenes
  logLevel := settings.logLevel

def json (settings : Settings) : JsonValue := settings.toLayer.json

def format? (value : JsonValue) : Option Report.Format :=
  value.name?.bind Report.Format.ofName?

def Layer.ofJson? (value : JsonValue) : Option Layer := do
  let value ← value.record?
    ["source_path", "exclude_patterns", "max_depth", "follow_links", "output_format",
      "output_file", "quiet", "verbose", "use_colors", "parallel", "show_progress",
      "include_scenes", "log_level"]
  let boolean (name : String) := (value.field name).optional? JsonValue.boolean?
  let text (name : String) := (value.field name).optional? JsonValue.text?
  return {
    sourcePath := ← text "source_path"
    exclude := ← (value.field "exclude_patterns").optional? (JsonValue.items? JsonValue.text?)
    maxDepth := ← (value.field "max_depth").optional? JsonValue.number?
    followLinks := ← boolean "follow_links"
    format := ← (value.field "output_format").optional? format?
    outputFile := ← text "output_file"
    quiet := ← boolean "quiet"
    verbose := ← boolean "verbose"
    colors := ← boolean "use_colors"
    parallel := ← boolean "parallel"
    showProgress := ← boolean "show_progress"
    includeScenes := ← boolean "include_scenes"
    logLevel := ← text "log_level" }

/-- Settings decide every setting for themselves. -/
theorem resolve_toLayer (settings : Settings) : settings.toLayer.resolve = settings := by
  simp [toLayer, Layer.resolve, standard]

end GodotGraph.Settings
