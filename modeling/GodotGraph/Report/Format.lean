import GodotGraph.Report.Csv
import GodotGraph.Report.Json
import GodotGraph.Report.Text

/-!
Contract: the formats that a report can be written in.

Owns: the names of the formats, and writing a report in one of them.
-/

set_option autoImplicit false

namespace GodotGraph.Report

inductive Format where
  | text
  | json
  | csv
  deriving DecidableEq, Repr

namespace Format

def name : Format → String
  | text => "text"
  | json => "json"
  | csv => "csv"

/-- The format of exactly this name. -/
def ofName? (text : String) : Option Format :=
  [Format.text, json, csv].find? fun format => format.name = text

/-- A text that names no format. -/
structure Unknown where
  text : String
  deriving DecidableEq, Repr

def Unknown.message (unknown : Unknown) : String :=
  "Invalid output format: " ++ unknown.text

/-- The format of this name, whether in small letters or in capitals. -/
def ofText (text : String) : Except Unknown Format :=
  match ofName? text.toLower with
  | some format => .ok format
  | none => .error ⟨text⟩

end Format

structure Presentation where
  format : Format
  colors : Bool
  verbose : Bool
  quiet : Bool
  deriving DecidableEq, Repr

/-- The report as it is written. Only text reports have a quiet form. -/
def write (presentation : Presentation) (report : Report) : String :=
  match presentation.format with
  | .text =>
      if presentation.quiet then report.quietText
      else report.text ⟨presentation.colors, presentation.verbose⟩
  | .json => report.jsonText Text.JsonValue.Layout.pretty
  | .csv => report.csvText

end GodotGraph.Report
