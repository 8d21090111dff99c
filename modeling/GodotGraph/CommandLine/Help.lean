import GodotGraph.CommandLine

/-!
Contract: what the program says about its command line.

Owns: the help, the version, and the messages on command lines that are refused.
-/

set_option autoImplicit false

namespace GodotGraph.CommandLine

def versionText : String := "gdscan 0.1.0\n"

def Setting.valueName : Setting → String
  | path => "PATH"
  | exclude => "PATTERN"
  | maxDepth => "DEPTH"
  | output => "OUTPUT"
  | outputFile => "FILE"
  | logLevel => "FILTER"
  | config => "FILE"

def Setting.purpose : Setting → String
  | path => "Godot project directory to scan (defaults to the current directory)"
  | exclude => "Glob patterns to exclude (repeatable)"
  | maxDepth => "Maximum directory depth below the project root"
  | output => "Report format: text, json or csv"
  | outputFile => "Write the report to this file instead of stdout"
  | logLevel => "Log filter such as 'warn' or 'gdscan=debug' (RUST_LOG takes precedence)"
  | config => "Configuration file (defaults to .gdscan.toml in the current directory)"

def Switch.purpose : Switch → String
  | quiet => "Print only a one-line summary and errors"
  | verbose => "List every file and dependency and log at debug level"
  | noColors => "Disable colored output"
  | noParallel => "Extract files on a single thread"
  | noProgress => "Disable the progress bar"
  | noScenes => "Skip .tscn and .tres files"
  | followLinks => "Follow symbolic links while walking the project"
  | init => "Create a default .gdscan.toml in the current directory and exit"
  | help => "Print help"
  | version => "Print version"

/-- The letter and the long name of a parameter. -/
def Parameter.usage (parameter : Parameter) : String :=
  let letter :=
    match parameter.letter? with
    | some c => "-" ++ c.toString ++ ", "
    | none => "    "
  let value :=
    match parameter with
    | .setting name => " <" ++ name.valueName ++ ">"
    | .switch _ => ""
  letter ++ "--" ++ parameter.longName ++ value

def Parameter.purpose : Parameter → String
  | switch name => name.purpose
  | setting name => name.purpose

def usageText : String := "Usage: gdscan [OPTIONS]\n"

def helpText : String :=
  "Extract classes, inheritance and dependencies from GDScript and Godot scene files\n\n" ++
    usageText ++ "\nOptions:\n" ++
    String.join (Parameter.all.map fun parameter =>
      "  " ++ parameter.usage ++ "\n          " ++ parameter.purpose ++ "\n")

def Refusal.message : Refusal → String
  | help => helpText
  | version => versionText
  | unknownArgument text => "unexpected argument '" ++ text ++ "' found"
  | missingValue setting =>
      "a value is required for '" ++ (Parameter.setting setting).usage ++ "' but none was supplied"
  | badValue setting value =>
      "invalid value '" ++ value ++ "' for '" ++ (Parameter.setting setting).usage ++ "'"
  | badNumber setting value =>
      "invalid value '" ++ value ++ "' for '" ++ (Parameter.setting setting).usage ++ "': no number"
  | repeated parameter =>
      "the argument '" ++ parameter.usage ++ "' cannot be used multiple times"
  | uncalledValue switch value =>
      "unexpected value '" ++ value ++ "' for '" ++ (Parameter.switch switch).usage ++ "' found"

end GodotGraph.CommandLine
