import GodotGraph.Report

/-!
Contract: reports as tables with one row for each edge.

Owns: quoting of fields, and the rows.
-/

set_option autoImplicit false

namespace GodotGraph.Report

/-- A field with one of these characters is quoted. -/
def csvMarks : List Char := [',', '"', '\n', '\r']

/-- A field of a row. Quotes inside a quoted field are written twice. -/
def csvField (field : String) : String :=
  if field.toList.any csvMarks.contains then
    let doubled := field.toList.flatMap fun c => if c = '"' then ['"', '"'] else [c]
    "\"" ++ String.ofList doubled ++ "\""
  else field

def csvRow (fields : List String) : String :=
  String.intercalate "," (fields.map csvField) ++ "\n"

def Edge.fields (edge : Edge) : List String :=
  [edge.source, edge.sourceKind, edge.target, edge.kind.text,
    if edge.resolved then "true" else "false"]

def csvHeader : List String := ["Source", "Source Kind", "Target", "Edge Kind", "Resolved"]

/-- All edges of a report as a table. -/
def csvText (report : Report) : String :=
  String.join ((csvHeader :: report.edges.map Edge.fields).map csvRow)

end GodotGraph.Report
