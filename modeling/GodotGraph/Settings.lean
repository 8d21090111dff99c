import GodotGraph.Report.Format

/-!
Contract: the settings of a scan.

Owns: the settings, their standard values, and the filter for log lines that follows
from them.

Does not own: where settings come from.
-/

set_option autoImplicit false

namespace GodotGraph

/-- Everything that a user can decide about a scan. -/
structure Settings where
  sourcePath : String
  exclude : List String
  maxDepth : Option Nat
  followLinks : Bool
  format : Report.Format
  outputFile : Option String
  quiet : Bool
  verbose : Bool
  colors : Bool
  parallel : Bool
  showProgress : Bool
  includeScenes : Bool
  logLevel : Option String
  deriving DecidableEq, Repr

namespace Settings

/-- The settings of a user who decided nothing. -/
def standard : Settings where
  sourcePath := "."
  exclude := [".godot", ".import", ".git", "addons"]
  maxDepth := none
  followLinks := false
  format := .text
  outputFile := none
  quiet := false
  verbose := false
  colors := true
  parallel := true
  showProgress := true
  includeScenes := true
  logLevel := none

/-- The filter for log lines: the given one, or one that follows from how much the user
wants to see. -/
def logFilter (settings : Settings) : String :=
  match settings.logLevel with
  | some level => level
  | none => if settings.quiet then "error" else if settings.verbose then "debug" else "warn"

/-- How the report is written. Colours are for the console only. -/
def presentation (settings : Settings) : Report.Presentation where
  format := settings.format
  colors := settings.colors && settings.outputFile.isNone
  verbose := settings.verbose
  quiet := settings.quiet

end Settings

end GodotGraph
