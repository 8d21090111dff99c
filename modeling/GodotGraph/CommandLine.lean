import GodotGraph.CommandLine.Parameter
import GodotGraph.Settings.Source
import GodotGraph.Text.Numeral

/-!
Contract: the command line of the program.

Owns:
- what a command line says, and why one is refused;
- reading arguments one after the other;
- the settings that a command line decides.

An option without its value waits for it. Whatever comes next settles the option first,
unless it is not known at all: then nothing else counts.
-/

set_option autoImplicit false

namespace GodotGraph

structure CommandLine where
  path : Option String
  exclude : List String
  maxDepth : Option Nat
  format : Option Report.Format
  outputFile : Option String
  logLevel : Option String
  config : Option String
  switches : List CommandLine.Switch
  deriving DecidableEq, Repr

namespace CommandLine

/-- Why a command line is not carried out. -/
inductive Refusal where
  /-- Help is asked for. -/
  | help
  /-- The version is asked for. -/
  | version
  | unknownArgument (text : String)
  | missingValue (setting : Setting)
  /-- The value is empty or none of those to choose from. -/
  | badValue (setting : Setting) (value : String)
  | badNumber (setting : Setting) (value : String)
  | repeated (parameter : Parameter)
  | uncalledValue (switch : Switch) (value : String)
  deriving DecidableEq, Repr

def empty : CommandLine where
  path := none
  exclude := []
  maxDepth := none
  format := none
  outputFile := none
  logLevel := none
  config := none
  switches := []

def has (line : CommandLine) (switch : Switch) : Bool := line.switches.contains switch

/-! ## Settling parameters -/

/-- The command line with a switch turned on, which happens only once. -/
def turnOn (line : CommandLine) (switch : Switch) : Except Refusal CommandLine :=
  match switch with
  | .help => .error .help
  | .version => .error .version
  | _ =>
      if line.has switch then .error (.repeated (.switch switch))
      else .ok { line with switches := line.switches ++ [switch] }

/-- Stores a value, unless there is one already. -/
def once {α : Type} (setting : Setting) (held : Option α) (read : Except Refusal α)
    (store : α → CommandLine) : Except Refusal CommandLine :=
  if held.isSome then .error (.repeated (.setting setting)) else read.map store

/-- A path, which is never empty. -/
def readPath (setting : Setting) (value : String) : Except Refusal String :=
  if value = "" then .error (.badValue setting value) else .ok value

def readNumber (setting : Setting) (value : String) : Except Refusal Nat :=
  match Text.word? value with
  | some number => .ok number
  | none => .error (.badNumber setting value)

/-- The name of a format, in small letters. -/
def readFormat (setting : Setting) (value : String) : Except Refusal Report.Format :=
  match Report.Format.ofName? value with
  | some format => .ok format
  | none => .error (.badValue setting value)

def store (line : CommandLine) (setting : Setting) (value : String) :
    Except Refusal CommandLine :=
  match setting with
  | .path => once setting line.path (readPath setting value) ({ line with path := some · })
  | .exclude => .ok { line with exclude := line.exclude ++ [value] }
  | .maxDepth =>
      once setting line.maxDepth (readNumber setting value) ({ line with maxDepth := some · })
  | .output => once setting line.format (readFormat setting value) ({ line with format := some · })
  | .outputFile =>
      once setting line.outputFile (readPath setting value) ({ line with outputFile := some · })
  | .logLevel => once setting line.logLevel (.ok value) ({ line with logLevel := some · })
  | .config => once setting line.config (readPath setting value) ({ line with config := some · })

/-! ## Reading arguments -/

/-- An option that was named, and its value if that was given. -/
structure Pending where
  setting : Setting
  value : Option String
  deriving DecidableEq, Repr

/-- What was read so far. After two dashes there is no parameter any more. -/
structure Reading where
  line : CommandLine
  pending : Option Pending
  closed : Bool
  deriving DecidableEq, Repr

namespace Reading

def start : Reading := ⟨CommandLine.empty, none, false⟩

def settled (reading : Reading) : Except Refusal CommandLine :=
  match reading.pending with
  | none => .ok reading.line
  | some ⟨setting, none⟩ => .error (.missingValue setting)
  | some ⟨setting, some value⟩ => reading.line.store setting value

def turnOn (reading : Reading) (switch : Switch) : Except Refusal Reading := do
  let line ← (← reading.settled).turnOn switch
  return { reading with line := line, pending := none }

/-- Names an option, with its value if that is attached. -/
def name (reading : Reading) (setting : Setting) (attached : Option String) :
    Except Refusal Reading := do
  let line ← reading.settled
  match attached with
  | none => return { reading with line := line, pending := some ⟨setting, none⟩ }
  | some value =>
      let line ← line.store setting value
      return { reading with line := line, pending := none }

/-- A parameter by its long name, perhaps with a value after an equals sign. -/
def long (reading : Reading) (argument : String) (text : List Char) : Except Refusal Reading :=
  let attached :=
    match text.dropWhile (· ≠ '=') with
    | [] => none
    | _ :: value => some (String.ofList value)
  match Parameter.ofLongName? (String.ofList (text.takeWhile (· ≠ '='))), attached with
  | none, _ => .error (.unknownArgument argument)
  | some (.switch switch), none => reading.turnOn switch
  | some (.switch switch), some value => .error (.uncalledValue switch value)
  | some (.setting setting), attached => reading.name setting attached

/-- Several parameters by their letters. What follows the letter of an option is its
value, perhaps after an equals sign. -/
def letters (argument : String) : List Char → Reading → Except Refusal Reading
  | [], reading => .ok reading
  | c :: rest, reading =>
      match Parameter.ofLetter? c with
      | none => .error (.unknownArgument argument)
      | some (.switch switch) => do letters argument rest (← reading.turnOn switch)
      | some (.setting setting) =>
          match rest with
          | [] => reading.name setting none
          | '=' :: value => reading.name setting (some (String.ofList value))
          | value => reading.name setting (some (String.ofList value))

/-- An argument that names no parameter: the value that an option waits for. -/
def plain (reading : Reading) (argument : String) : Except Refusal Reading :=
  match reading.pending with
  | some ⟨setting, none⟩ => .ok { reading with pending := some ⟨setting, some argument⟩ }
  | _ => .error (.unknownArgument argument)

def step (reading : Reading) (argument : String) : Except Refusal Reading :=
  if reading.closed then .error (.unknownArgument argument)
  else
    match argument.toList with
    | ['-', '-'] => .ok { reading with closed := true }
    | '-' :: '-' :: text => reading.long argument text
    | '-' :: c :: text => letters argument (c :: text) reading
    | _ => reading.plain argument

end Reading

/-- Reads all arguments after the name of the program. -/
def ofArguments (arguments : List String) : Except Refusal CommandLine := do
  let reading ← arguments.foldlM Reading.step Reading.start
  reading.settled

/-! ## The settings -/

def turnsOn (line : CommandLine) (switch : Switch) : Option Bool :=
  if line.has switch then some true else none

def turnsOff (line : CommandLine) (switch : Switch) : Option Bool :=
  if line.has switch then some false else none

/-- The settings that the command line decides. A switch that is absent decides
nothing. -/
def layer (line : CommandLine) : Settings.Layer where
  sourcePath := line.path
  exclude := if line.exclude.isEmpty then none else some line.exclude
  maxDepth := line.maxDepth
  followLinks := line.turnsOn .followLinks
  format := line.format
  outputFile := line.outputFile
  quiet := line.turnsOn .quiet
  verbose := line.turnsOn .verbose
  colors := line.turnsOff .noColors
  parallel := line.turnsOff .noParallel
  showProgress := line.turnsOff .noProgress
  includeScenes := line.turnsOff .noScenes
  logLevel := line.logLevel

def source (line : CommandLine) : Settings.Source where
  name := "command-line arguments"
  priority := 30
  available := true
  load := .ok line.layer

/-- Without arguments nothing is decided. -/
theorem layer_of_no_arguments :
    (ofArguments []).map layer = .ok Settings.Layer.empty := rfl

end CommandLine

end GodotGraph
