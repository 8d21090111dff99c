import GodotGraph.Problem
import GodotGraph.Settings
import GodotGraph.Text.Blank

/-!
Contract: settings that are decided only in part.

Owns:
- layers, which leave any setting open;
- laying one layer over another, and filling what is left open;
- values that no layer may have.

Each setting is decided for itself, by the topmost layer that decides it.
-/

set_option autoImplicit false

namespace GodotGraph

/-- Some settings, and others left open. -/
structure Settings.Layer where
  sourcePath : Option String
  exclude : Option (List String)
  maxDepth : Option Nat
  followLinks : Option Bool
  format : Option Report.Format
  outputFile : Option String
  quiet : Option Bool
  verbose : Option Bool
  colors : Option Bool
  parallel : Option Bool
  showProgress : Option Bool
  includeScenes : Option Bool
  logLevel : Option String
  deriving DecidableEq, Repr

namespace Settings.Layer

def empty : Layer where
  sourcePath := none
  exclude := none
  maxDepth := none
  followLinks := none
  format := none
  outputFile := none
  quiet := none
  verbose := none
  colors := none
  parallel := none
  showProgress := none
  includeScenes := none
  logLevel := none

def atop (upper lower : Layer) : Layer where
  sourcePath := upper.sourcePath.or lower.sourcePath
  exclude := upper.exclude.or lower.exclude
  maxDepth := upper.maxDepth.or lower.maxDepth
  followLinks := upper.followLinks.or lower.followLinks
  format := upper.format.or lower.format
  outputFile := upper.outputFile.or lower.outputFile
  quiet := upper.quiet.or lower.quiet
  verbose := upper.verbose.or lower.verbose
  colors := upper.colors.or lower.colors
  parallel := upper.parallel.or lower.parallel
  showProgress := upper.showProgress.or lower.showProgress
  includeScenes := upper.includeScenes.or lower.includeScenes
  logLevel := upper.logLevel.or lower.logLevel

/-- The settings of a layer, with standard values for what it leaves open. -/
def resolve (layer : Layer) : Settings where
  sourcePath := layer.sourcePath.getD standard.sourcePath
  exclude := layer.exclude.getD standard.exclude
  maxDepth := layer.maxDepth.or standard.maxDepth
  followLinks := layer.followLinks.getD standard.followLinks
  format := layer.format.getD standard.format
  outputFile := layer.outputFile.or standard.outputFile
  quiet := layer.quiet.getD standard.quiet
  verbose := layer.verbose.getD standard.verbose
  colors := layer.colors.getD standard.colors
  parallel := layer.parallel.getD standard.parallel
  showProgress := layer.showProgress.getD standard.showProgress
  includeScenes := layer.includeScenes.getD standard.includeScenes
  logLevel := layer.logLevel.or standard.logLevel

/-! ## Values that no layer may have

The origin says where the layer comes from. -/

def patternProblem? (origin pattern : String) : Option Problem :=
  if pattern = "" then some (.settings ("Empty exclude pattern in config file: " ++ origin))
  else
    match Glob.ofText pattern with
    | .ok _ => none
    | .error error =>
        some (.settings ("Invalid exclude pattern '" ++ pattern ++ "' in config file: " ++ origin ++
          ": " ++ error.message))

def sourcePathProblem? (origin : String) (layer : Layer) : Option Problem :=
  if layer.sourcePath = some "" then
    some (.settings ("Invalid empty source_path in config file: " ++ origin))
  else none

/-- What is wrong with the first bad pattern. -/
def excludeProblem? (origin : String) (layer : Layer) : Option Problem :=
  (layer.exclude.getD []).findSome? (patternProblem? origin)

def maxDepthProblem? (origin : String) (layer : Layer) : Option Problem :=
  if layer.maxDepth = some 0 then
    some (.settings ("Invalid max_depth 0 in config file: " ++ origin ++ ". Must be at least 1."))
  else none

def outputFileProblem? (origin : String) (layer : Layer) : Option Problem :=
  if layer.outputFile = some "" then
    some (.settings ("Invalid empty output_file in config file: " ++ origin))
  else none

def logLevelProblem? (origin : String) (layer : Layer) : Option Problem :=
  if layer.logLevel.any fun level => Text.allBlank level.toList then
    some (.settings ("Invalid empty log_level in config file: " ++ origin))
  else none

/-- What is wrong with a layer. Of several faults the first in this order counts. -/
def problem? (origin : String) (layer : Layer) : Option Problem :=
  (layer.sourcePathProblem? origin).or <|
    (layer.excludeProblem? origin).or <|
      (layer.maxDepthProblem? origin).or <|
        (layer.outputFileProblem? origin).or (layer.logLevelProblem? origin)

/-- The layer, if nothing is wrong with it. -/
def checked (origin : String) (layer : Layer) : Except Problem Layer :=
  match layer.problem? origin with
  | some problem => .error problem
  | none => .ok layer

/-- An empty layer above or below changes nothing. -/
theorem empty_atop (layer : Layer) : empty.atop layer = layer ∧ layer.atop empty = layer := by
  simp [atop, empty]

/-- Three layers can be put together from either end. -/
theorem atop_assoc (top middle bottom : Layer) :
    (top.atop middle).atop bottom = top.atop (middle.atop bottom) := by
  simp [atop, Option.or_assoc]

end Settings.Layer

end GodotGraph
