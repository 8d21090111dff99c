import GodotGraph.Settings.Source
import GodotGraph.Text.Numeral

/-!
Contract: settings from environment variables.

Owns: the variables that count, reading their values, and the source that they make.

A value that cannot be read counts as absent.
-/

set_option autoImplicit false

namespace GodotGraph.Settings

/-- Environment variables, and the word that the names of those for settings begin
with. -/
structure Environment where
  family : String
  bindings : List (String × String)
  deriving DecidableEq, Repr

namespace Environment

/-- The names of the variables that count, without their common first word. -/
def keys : List String :=
  ["SOURCE_PATH", "EXCLUDE", "MAX_DEPTH", "OUTPUT_FORMAT", "OUTPUT_FILE", "PARALLEL",
    "INCLUDE_SCENES", "LOG_LEVEL"]

/-- The value of a variable. Of several values the last counts. -/
def value? (environment : Environment) (key : String) : Option String :=
  let name := environment.family ++ "_" ++ key
  (environment.bindings.reverse.find? fun entry => entry.1 = name).map Prod.snd

/-! ## Reading values -/

/-- A switch: on or off in one of four words each, whatever the case. -/
def switch? (value : String) : Option Bool :=
  let word := (Text.trimmed value).toLower
  if ["1", "true", "yes", "on"].contains word then some true
  else if ["0", "false", "no", "off"].contains word then some false
  else none

/-- A number between blanks. -/
def number? (value : String) : Option Nat :=
  Text.word? (Text.trimmed value)

/-- The name of a format between blanks. -/
def format? (value : String) : Option Report.Format :=
  match Report.Format.ofText (Text.trimmed value) with
  | .ok format => some format
  | .error _ => none

/-- The parts between commas, without blanks around them and without empty ones. -/
def patterns (value : String) : List String :=
  ((Text.pieces ',' value.toList).map fun piece => String.ofList (Text.trim piece)).filter
    fun pattern => pattern ≠ ""

/-! ## The source -/

def layer (environment : Environment) : Layer :=
  { Layer.empty with
    sourcePath := environment.value? "SOURCE_PATH"
    exclude := (environment.value? "EXCLUDE").map patterns
    maxDepth := (environment.value? "MAX_DEPTH").bind number?
    format := (environment.value? "OUTPUT_FORMAT").bind format?
    outputFile := environment.value? "OUTPUT_FILE"
    parallel := (environment.value? "PARALLEL").bind switch?
    includeScenes := (environment.value? "INCLUDE_SCENES").bind switch?
    logLevel := environment.value? "LOG_LEVEL" }

/-- How messages name the variables. -/
def origin (environment : Environment) : String := "$" ++ environment.family ++ "_*"

/-- The settings, if nothing is wrong with them. -/
def load (environment : Environment) : Except Problem Layer :=
  environment.layer.checked environment.origin

/-- Some variable that counts is set. -/
def isAvailable (environment : Environment) : Bool :=
  keys.any fun key => (environment.value? key).isSome

def source (environment : Environment) : Source where
  name := environment.family ++ " environment variables"
  priority := 20
  available := environment.isAvailable
  load := environment.load

/-- Without variables nothing is decided. -/
theorem layer_of_no_variables (family : String) :
    (Environment.mk family []).layer = Layer.empty := rfl

end Environment

end GodotGraph.Settings
