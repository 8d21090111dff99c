/-!
Contract: what can be written on a command line.

Owns: switches and options, with their long and short names.

A switch stands alone. An option is followed by a value.
-/

set_option autoImplicit false

namespace GodotGraph.CommandLine

/-- Something that is turned on, or asked for. -/
inductive Switch where
  | quiet
  | verbose
  | noColors
  | noParallel
  | noProgress
  | noScenes
  | followLinks
  | init
  | help
  | version
  deriving DecidableEq, Repr

/-- Something that takes a value. -/
inductive Setting where
  | path
  | exclude
  | maxDepth
  | output
  | outputFile
  | logLevel
  | config
  deriving DecidableEq, Repr

namespace Switch

def all : List Switch :=
  [quiet, verbose, noColors, noParallel, noProgress, noScenes, followLinks, init, help, version]

/-- The name after two dashes. -/
def longName : Switch → String
  | quiet => "quiet"
  | verbose => "verbose"
  | noColors => "no-colors"
  | noParallel => "no-parallel"
  | noProgress => "no-progress"
  | noScenes => "no-scenes"
  | followLinks => "follow-links"
  | init => "init"
  | help => "help"
  | version => "version"

/-- The letter after one dash. -/
def letter? : Switch → Option Char
  | quiet => some 'q'
  | verbose => some 'v'
  | help => some 'h'
  | version => some 'V'
  | _ => none

end Switch

namespace Setting

def all : List Setting := [path, exclude, maxDepth, output, outputFile, logLevel, config]

def longName : Setting → String
  | path => "path"
  | exclude => "exclude"
  | maxDepth => "max-depth"
  | output => "output"
  | outputFile => "output-file"
  | logLevel => "log-level"
  | config => "config"

def letter? : Setting → Option Char
  | path => some 'p'
  | exclude => some 'e'
  | output => some 'o'
  | config => some 'c'
  | _ => none

end Setting

/-- A switch or an option. -/
inductive Parameter where
  | switch (name : Switch)
  | setting (name : Setting)
  deriving DecidableEq, Repr

namespace Parameter

def all : List Parameter := Switch.all.map switch ++ Setting.all.map setting

def longName : Parameter → String
  | switch name => name.longName
  | setting name => name.longName

def letter? : Parameter → Option Char
  | switch name => name.letter?
  | setting name => name.letter?

/-- The parameter with a long name. Names are never shortened. -/
def ofLongName? (name : String) : Option Parameter :=
  all.find? fun parameter => parameter.longName = name

def ofLetter? (c : Char) : Option Parameter :=
  all.find? fun parameter => parameter.letter? = some c

/-- Each parameter has a long name of its own. -/
theorem longName_nodup : (all.map longName).Nodup := by decide

end Parameter

end GodotGraph.CommandLine
