import GodotGraph.CommandLine.Help
import GodotGraph.Report.Format
import GodotGraph.Scan
import GodotGraph.Settings.Decision

/-!
Contract: what the program does for a command line.

Owns:
- the surroundings that a call depends on, and what comes out of it;
- the lines about a problem;
- creating a settings file, and scanning a project.

A call is a function of its surroundings. Printing its output and saving its file is
left to whoever makes the call.
-/

set_option autoImplicit false

namespace GodotGraph.Program

/-- All that a call depends on besides its arguments. -/
structure Surroundings where
  tree : FileTree
  bindings : List (String × String)
  timestamp : Timestamp
  duration : Duration

/-- What comes out of a call: an exit code, the output, the lines for the user, and a
file to save. -/
structure Outcome where
  exitCode : Nat
  output : String
  notices : List String
  saved : Option (String × String)
  deriving DecidableEq, Repr

/-- The word that the names of environment variables for settings begin with. -/
def variableFamily : String := "GDSCAN"

/-! ## Problems -/

/-- What a user can do about a problem. -/
def suggestion? : Problem → Option String
  | .invalidPath _ =>
      some "Check that the path exists and points at a Godot project directory"
  | .settingsNotFound _ =>
      some "Run `gdscan --init` to create a .gdscan.toml or pass --config"
  | .permissionDenied _ =>
      some "Check file permissions or exclude the directory with --exclude"
  | .outputDirectoryNotFound _ =>
      some "Create the output directory first or specify a different path"
  | _ => none

def problemLines (problem : Problem) : List String :=
  ["", "Error: " ++ problem.userMessage] ++
    ((suggestion? problem).map ("Suggestion: " ++ ·)).toList ++
    if 0 < problem.exitCode then
      ["", "Exiting with code " ++ toString problem.exitCode ++ " due to " ++
        problem.severity.label]
    else []

/-- A call that ends with a problem, after some lines. -/
def failed (notices : List String) (problem : Problem) : Outcome :=
  ⟨problem.exitCode, "", notices ++ problemLines problem, none⟩

/-- A call whose command line is not carried out. -/
def refused (refusal : CommandLine.Refusal) : Outcome :=
  match refusal with
  | .help => ⟨0, CommandLine.helpText, [], none⟩
  | .version => ⟨0, CommandLine.versionText, [], none⟩
  | _ =>
      { exitCode := 2
        output := ""
        notices := ["error: " ++ refusal.message, "", "For more information, try '--help'."]
        saved := none }

/-! ## The two commands -/

/-- Creates a settings file in the working directory, unless there is one. -/
def createSettings (tree : FileTree) : Outcome :=
  let path := Settings.File.standardPath
  if tree.exists? path then
    { exitCode := 0
      output :=
        "Configuration file already exists at: " ++ path ++ "\n" ++
          "To overwrite it, delete the file first and run this command again.\n"
      notices := []
      saved := none }
  else
    match Settings.File.create tree path with
    | .error problem => failed [] problem
    | .ok _ =>
        { exitCode := 0
          output :=
            "Created default configuration file at: " ++ path ++ "\n" ++
              "Edit it to set source_path, exclude_patterns, output_format and friends.\n"
          notices := []
          saved := some (path, Settings.Template.text) }

/-- Told before a scan. -/
def firstEvent (settings : Settings) : Progress.Event :=
  .start 0 ("Scanning " ++ settings.sourcePath)

/-- Told after a scan: what was found, and every error that is more than a warning. -/
def closingEvents (report : Report) : List Progress.Event :=
  .finish ("Extracted " ++ toString report.summary.totalFiles ++ " files, " ++
      toString report.summary.totalEntities ++ " entities") ::
    (report.errors.filter fun entry => entry.severity ≠ .warning).map fun entry =>
      .warn (entry.path ++ ": " ++ entry.message)

/-- Writes a report to the console or into a file. -/
def delivered (tree : FileTree) (settings : Settings) (notices : List String)
    (report : Report) : Outcome :=
  let text := report.write settings.presentation
  match settings.outputFile with
  | none => ⟨report.exitCode, text, notices, none⟩
  | some path =>
      match tree.save path (.text text) with
      | .ok _ => ⟨report.exitCode, "", notices, some (path, text)⟩
      | .error fault => failed notices (.outputWrite path fault.system)

def scanProject (surroundings : Surroundings) (settings : Settings) : Outcome :=
  let reporter := Progress.new settings.quiet settings.verbose settings.showProgress
  let scan :=
    Scan.run surroundings.tree settings surroundings.duration surroundings.timestamp
  let events := firstEvent settings :: scan.events
  match scan.outcome with
  | .error problem => failed (reporter.linesOf events) problem
  | .ok report =>
      delivered surroundings.tree settings (reporter.linesOf (events ++ closingEvents report))
        report

/-! ## A call -/

def settingsFor (surroundings : Surroundings) (line : CommandLine) : Except Problem Settings :=
  Settings.decided surroundings.tree (.ofVariables surroundings.bindings)
    ⟨variableFamily, surroundings.bindings⟩ line

/-- The names of all environment variables that a call depends on. -/
def variableNames : List String :=
  ["HOME", "XDG_CONFIG_HOME"] ++
    Settings.Environment.keys.map fun key => variableFamily ++ "_" ++ key

def call (surroundings : Surroundings) (arguments : List String) : Outcome :=
  match CommandLine.ofArguments arguments with
  | .error refusal => refused refusal
  | .ok line =>
      if line.has .init then createSettings surroundings.tree
      else
        match settingsFor surroundings line with
        | .error problem => failed [] problem
        | .ok settings => scanProject surroundings settings

/-- A call with a problem ends with the exit code of the problem. -/
theorem exitCode_failed (notices : List String) (problem : Problem) :
    (failed notices problem).exitCode = problem.exitCode := rfl

end GodotGraph.Program
