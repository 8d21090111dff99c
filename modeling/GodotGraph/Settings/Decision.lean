import GodotGraph.CommandLine
import GodotGraph.Settings.Environment
import GodotGraph.Settings.File

/-!
Contract: deciding the settings of a scan.

Owns: checking decided settings against the file system, and the order of the sources.

The command line goes over environment variables, and these go over a file. A file that
the user names must be there; other files are optional.
-/

set_option autoImplicit false

namespace GodotGraph.Settings

/-! ## Checks -/

/-- The problem with the first bad pattern. -/
def patternProblem? (pattern : String) : Option Problem :=
  match Glob.ofText pattern with
  | .ok _ => none
  | .error error =>
      some (.analysis ("Invalid exclude pattern: " ++ pattern ++ ": " ++ error.message))

/-- The problem with the output file: its directory is not there. -/
def outputProblem? (tree : FileTree) (path : String) : Option Problem :=
  match Path.parent? path with
  | some above =>
      if above = "" || tree.isDirectory above then none
      else some (.outputDirectoryNotFound above)
  | none => none

/-- The problem with some settings. Of several the first in this order counts. -/
def problem? (tree : FileTree) (settings : Settings) : Option Problem :=
  if tree.exists? settings.sourcePath then
    (settings.exclude.findSome? patternProblem?).or <|
      if settings.maxDepth = some 0 then some (.settings "Max depth must be at least 1")
      else settings.outputFile.bind (outputProblem? tree)
  else some (.invalidPath settings.sourcePath)

def build (tree : FileTree) (layer : Layer) : Except Problem Settings :=
  match layer.resolve.problem? tree with
  | some problem => .error problem
  | none => .ok layer.resolve

/-! ## All sources -/

def ofSources (tree : FileTree) (sources : List Source) : Except Problem Settings := do
  build tree (← Source.loadAll sources Layer.empty)

/-- The settings from a file: the one that the command line names, or the first that is
found. -/
def fileLayer (tree : FileTree) (directories : UserDirectories) (line : CommandLine) :
    Except Problem Layer :=
  match line.config with
  | some path => (File.named path).load tree
  | none => File.loadFirst tree (File.candidates directories)

/-- What a file, environment variables and a command line decide together. -/
def proposed (tree : FileTree) (directories : UserDirectories) (environment : Environment)
    (line : CommandLine) : Except Problem Layer := do
  let base ← fileLayer tree directories line
  Source.overlayAll [environment.source, line.source] base

def decided (tree : FileTree) (directories : UserDirectories) (environment : Environment)
    (line : CommandLine) : Except Problem Settings := do
  build tree (← proposed tree directories environment line)

/-- Settings that are built have no problem. -/
theorem problem?_of_build {tree : FileTree} {layer : Layer} {settings : Settings}
    (built : build tree layer = .ok settings) : settings.problem? tree = none := by
  unfold build at built
  split at built
  · cases built
  · next none => cases built; exact none

end GodotGraph.Settings
