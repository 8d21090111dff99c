import GodotGraph.Glob

/-!
Contract: what can go wrong around an analysis.

Owns: the causes, how severe each is, the technical message and the message for
users, and the exit code that a cause leads to.

The analysis itself has no errors. They arise where files are found and read, where
settings are decided, and where reports are written.
-/

set_option autoImplicit false

namespace GodotGraph

/-- How much of the work an error stops. -/
inductive Severity where
  /-- The work goes on. -/
  | warning
  /-- One step is given up. -/
  | error
  /-- All work ends. -/
  | critical
  deriving DecidableEq, Repr

namespace Severity

/-- The severity in capitals. -/
def label : Severity → String
  | warning => "WARNING"
  | error => "ERROR"
  | critical => "CRITICAL"

def title : Severity → String
  | warning => "Warning"
  | error => "Error"
  | critical => "Critical"

end Severity

/-- What the file system says about a failed operation. -/
structure SystemFault where
  denied : Bool
  text : String
  deriving DecidableEq, Repr

inductive Problem where
  | system (fault : SystemFault)
  | sourceRead (path : String) (fault : SystemFault)
  | settings (message : String)
  | permissionDenied (path : String)
  | invalidPath (path : String)
  | document (detail : String)
  /-- A row of a table is not accepted by its writer. -/
  | csvRow (detail : String)
  | glob (error : Glob.Error)
  | settingsNotFound (path : String)
  | settingsRead (path : String) (fault : SystemFault)
  | settingsParse (path detail : String)
  | outputWrite (path : String) (fault : SystemFault)
  | consoleWrite (fault : SystemFault)
  | analysis (message : String)
  | traversal (path message : String)
  /-- A report cannot be written as JSON. -/
  | jsonReport (detail : String)
  /-- The written table is no text. -/
  | csvReport (detail : String)
  | outputDirectoryNotFound (path : String)
  deriving DecidableEq, Repr

namespace Problem

/-- How severe the cause is. Files that cannot be read are skipped; settings and
output that are not usable end the work. -/
def severity : Problem → Severity
  | permissionDenied _ => .warning
  | sourceRead _ _ => .warning
  | settings _ => .critical
  | settingsNotFound _ => .critical
  | settingsRead _ _ => .critical
  | settingsParse _ _ => .critical
  | consoleWrite _ => .critical
  | outputDirectoryNotFound _ => .critical
  | _ => .error

def message : Problem → String
  | system fault => "IO error: " ++ fault.text
  | sourceRead path fault => "Could not read source file " ++ path ++ ": " ++ fault.text
  | settings message => "Configuration error: " ++ message
  | permissionDenied path => "Permission denied accessing " ++ path
  | invalidPath path => "Invalid path: " ++ path
  | document detail => "TOML parsing error: " ++ detail
  | csvRow detail => "CSV error: " ++ detail
  | glob error => "Glob pattern error: " ++ error.message
  | settingsNotFound path => "Configuration file not found at " ++ path
  | settingsRead path fault => "Error reading configuration file " ++ path ++ ": " ++ fault.text
  | settingsParse path detail => "Error parsing configuration file " ++ path ++ ": " ++ detail
  | outputWrite path fault => "Error writing to output file " ++ path ++ ": " ++ fault.text
  | consoleWrite fault => "Error writing to stdout: " ++ fault.text
  | analysis message => "Analysis error: " ++ message
  | traversal path message => "Directory traversal error for " ++ path ++ ": " ++ message
  | jsonReport detail => "JSON serialization error: " ++ detail
  | csvReport detail => "CSV serialization error: " ++ detail
  | outputDirectoryNotFound path => "Output directory not found: " ++ path

/-- The message for users. Most causes have only the technical one. -/
def userMessage : Problem → String
  | permissionDenied path =>
      "Cannot access '" ++ path ++ "' due to permission denied. Check file permissions."
  | sourceRead path fault =>
      "Could not read '" ++ path ++ "': " ++ fault.text ++ ". Skipping file."
  | system fault =>
      "File system error: " ++ fault.text ++ ". Check disk space and permissions."
  | invalidPath path =>
      "Invalid path: '" ++ path ++ "'. Please provide a valid project directory."
  | settingsNotFound path =>
      "Configuration file not found at '" ++ path ++
        "'. Create a config file or use command line options."
  | outputDirectoryNotFound path =>
      "Output directory '" ++ path ++
        "' does not exist. Please create the directory or specify a different output path."
  | other => other.message

def isCritical (problem : Problem) : Bool := problem.severity = .critical

/-- The exit code of a program that stops for the cause. -/
def exitCode (problem : Problem) : Nat :=
  match problem.severity with
  | .warning => 0
  | .error => 1
  | .critical => 2

/-- A fault while reading a source file. -/
def ofSourceFault (path : String) (fault : SystemFault) : Problem :=
  if fault.denied then permissionDenied path else sourceRead path fault

/-- A fault with a note on what was being done. -/
def ofNotedFault (note : String) (fault : SystemFault) : Problem :=
  analysis (note ++ ": " ++ fault.text)

/-- A cause ends all work exactly if its exit code is two. -/
theorem exitCode_eq_two_iff (problem : Problem) :
    problem.exitCode = 2 ↔ problem.isCritical = true := by
  unfold exitCode isCritical
  cases problem.severity <;> simp

end Problem

end GodotGraph
