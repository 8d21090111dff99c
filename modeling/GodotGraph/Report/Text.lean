import GodotGraph.Report
import GodotGraph.Text.Ansi

/-!
Contract: reports for people to read.

Owns: the text of a whole report, of its entries, and the summary in one line.
-/

set_option autoImplicit false

namespace GodotGraph.Report

open Text (paint)

structure TextStyle where
  colors : Bool
  verbose : Bool
  deriving DecidableEq, Repr

/-- One line for each dependency, the resolved ones first. -/
def dependencyLines (colors : Bool) (resolved unresolved : List String) : String :=
  String.join (resolved.map fun name => "    -> " ++ paint colors .green name ++ "\n") ++
    String.join (unresolved.map fun name =>
      "    -> " ++ name ++ " " ++ paint colors .dimmed "(external)" ++ "\n")

def FileEntry.text (colors : Bool) (file : FileEntry) : String :=
  "  " ++ paint colors .boldBlue file.key ++ " [" ++ file.language.title ++ "]\n" ++
    (match file.moduleName with
      | some name => "    module: " ++ name ++ "\n"
      | none => "") ++
    dependencyLines colors file.resolved file.unresolved

def EntityEntry.text (style : TextStyle) (entity : EntityEntry) : String :=
  "  " ++ paint style.colors .boldCyan entity.uniqueName ++
    (if entity.inheritance.isEmpty then ""
      else
        " extends " ++ paint style.colors .purple (String.intercalate ", " entity.inheritance)) ++
    " (" ++ toString (entity.resolved.length + entity.unresolved.length) ++ " deps)\n" ++
    (if style.verbose then
      "    " ++ paint style.colors .dimmed ("declared in " ++ entity.fileKey) ++ "\n" ++
        dependencyLines style.colors entity.resolved entity.unresolved
      else "")

def severityStyle : Severity → Text.Style
  | .warning => .yellow
  | .error => .red
  | .critical => .boldRed

def ErrorEntry.text (colors : Bool) (entry : ErrorEntry) : String :=
  "  [" ++ paint colors (severityStyle entry.severity) entry.severity.label ++ "] " ++
    entry.path ++ ": " ++ entry.message ++ "\n"

/-- The lines on counts and duration. -/
def Summary.text (summary : Summary) : String :=
  "Files scanned: " ++ toString summary.totalFiles ++ " (" ++ toString summary.scriptFiles ++
    " GDScript, " ++ toString summary.sceneFiles ++ " scene/resource)\n" ++
  "Entities: " ++ toString summary.totalEntities ++ "\n" ++
  "Dependencies: " ++ toString summary.totalDependencies ++ " (" ++
    toString summary.resolvedDependencies ++ " resolved, " ++
    toString summary.unresolvedDependencies ++ " external, " ++
    summary.resolution.text 1 ++ "% resolved)\n" ++
  "Grammar matches: " ++ toString summary.hits ++ " hits, " ++ toString summary.misses ++
    " misses (" ++ summary.hitRate.text 1 ++ "% hit rate)\n" ++
  "Scan duration: " ++ summary.scanDuration.text ++ "\n"

/-- The lines on errors, if there were any. -/
def Summary.errorText (colors : Bool) (summary : Summary) : String :=
  if summary.errors = 0 then ""
  else
    "\n" ++ paint colors .boldYellow ("Errors encountered: " ++ toString summary.errors) ++ "\n" ++
      "  Warnings: " ++ toString summary.warnings ++ "\n" ++
      "  Critical errors: " ++ toString summary.criticalErrors ++ "\n"

/-- The sections that only a verbose report has. -/
def verboseText (colors : Bool) (report : Report) : String :=
  "\nFiles:\n" ++ String.join (report.files.map (FileEntry.text colors)) ++
    (if report.errors.isEmpty then ""
      else "\nErrors:\n" ++ String.join (report.errors.map (ErrorEntry.text colors)))

def text (style : TextStyle) (report : Report) : String :=
  paint style.colors .boldBlue "Godot Project Analysis" ++ "\n\n" ++
    (if report.sourceRoot = "" then "" else "Source root: " ++ report.sourceRoot ++ "\n") ++
    report.summary.text ++
    report.summary.errorText style.colors ++
    (if report.entities.isEmpty then ""
      else "\nEntities:\n" ++ String.join (report.entities.map (EntityEntry.text style))) ++
    (if style.verbose then verboseText style.colors report else "")

/-- The report in one line, and another if there were critical errors. -/
def quietText (report : Report) : String :=
  let summary := report.summary
  "Files: " ++ toString summary.totalFiles ++ ", entities: " ++ toString summary.totalEntities ++
    ", dependencies: " ++ toString summary.totalDependencies ++ " (" ++
    toString summary.resolvedDependencies ++ " resolved)\n" ++
    (if summary.criticalErrors = 0 then ""
      else "Critical errors: " ++ toString summary.criticalErrors ++ "\n")

end GodotGraph.Report
