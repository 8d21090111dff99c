import GodotGraph.Settings.Layer
import GodotGraph.Toml.Document

/-!
Contract: settings from a document.

Owns: the keys of a document that count, and the values that fit them.

Other keys are ignored.
-/

set_option autoImplicit false

namespace GodotGraph.Settings.Document

open Toml (Value Entries)

/-! ## Values that fit -/

def text? : Value → Option String
  | .text s => some s
  | _ => none

def boolean? : Value → Option Bool
  | .boolean b => some b
  | _ => none

/-- A number that fits into a machine word. -/
def number? : Value → Option Nat
  | .integer n => if 0 ≤ n && n < Text.wordLimit then some n.toNat else none
  | _ => none

def texts? : Value → Option (List String)
  | .items _ values => values.mapM text?
  | _ => none

/-- Nothing is said about the name of a format. -/
def isBareValue : Value → Bool
  | .items _ values => values.isEmpty
  | .table _ entries => entries.isEmpty
  | _ => false

/-- The name of a format, as a text or as the only key of a table. -/
def format? : Value → Option Report.Format
  | .text s => Report.Format.ofName? s
  | .table _ [(name, value)] =>
      if isBareValue value then Report.Format.ofName? name else none
  | _ => none

/-! ## The layer -/

/-- The setting under a key, if the document has one. Its value must fit. -/
def setting {α : Type} (entries : Entries) (key : String) (fits? : Value → Option α) :
    Except Toml.Error (Option α) :=
  match entries.find? key with
  | none => .ok none
  | some value =>
      match fits? value with
      | some read => .ok (some read)
      | none => .error ⟨none, .unfit key⟩

def layer (entries : Entries) : Except Toml.Error Layer := do
  return {
    sourcePath := ← setting entries "source_path" text?
    exclude := ← setting entries "exclude_patterns" texts?
    maxDepth := ← setting entries "max_depth" number?
    followLinks := ← setting entries "follow_links" boolean?
    format := ← setting entries "output_format" format?
    outputFile := ← setting entries "output_file" text?
    quiet := ← setting entries "quiet" boolean?
    verbose := ← setting entries "verbose" boolean?
    colors := ← setting entries "use_colors" boolean?
    parallel := ← setting entries "parallel" boolean?
    showProgress := ← setting entries "show_progress" boolean?
    includeScenes := ← setting entries "include_scenes" boolean?
    logLevel := ← setting entries "log_level" text? }

/-- Reads a document from some place and checks the settings in it. -/
def load (origin content : String) : Except Problem Layer :=
  match (Entries.ofText content).bind layer with
  | .error error => .error (.settingsParse origin (error.message content))
  | .ok layer => layer.checked origin

/-- A document without entries decides nothing. -/
theorem layer_of_no_entries : layer [] = .ok Layer.empty := rfl

end GodotGraph.Settings.Document
