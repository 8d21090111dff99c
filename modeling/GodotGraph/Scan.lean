import GodotGraph.Discovery
import GodotGraph.Progress
import GodotGraph.Report

/-!
Contract: a scan, from finding the sources of a project to the report on it.

Owns: the steps of a scan in order, and what users are told about them.
-/

set_option autoImplicit false

namespace GodotGraph

/-- What users are told during a scan, and how it ends. -/
structure Scan where
  events : List Progress.Event
  outcome : Except Problem Report

namespace Scan

/-- Told at the start. -/
def rootEvent (root : String) : Progress.Event :=
  .update 0 0 ("Scanning directory: " ++ root)

/-- Told when all sources are read. -/
def foundEvent (total : Nat) : Progress.Event :=
  .update 0 total ("Found " ++ toString total ++ " source files")

/-- Told after each source. -/
def sourceEvents (visited total : Nat) : List Progress.Event :=
  (List.range visited).map fun index => .update (index + 1) total "Extracting"

/-- Told at the end. -/
def lastEvent (total : Nat) : Progress.Event :=
  .update total total "Analysis complete"

/-- The report on a run, with the problems met on the way to it. -/
def reportOf (run : Analysis.Run) (problems : List (String × Problem)) (duration : Duration)
    (timestamp : Timestamp) : Report :=
  (problems.foldl (fun report problem => report.addProblem problem.1 problem.2)
    (Report.ofRun run duration timestamp)).finalize

/-- Scans a project. It starts at some moment and takes some time. -/
def run (tree : FileTree) (settings : Settings) (duration : Duration) (timestamp : Timestamp) :
    Scan :=
  match Discovery.rootPlace tree settings with
  | .error problem => ⟨[], .error problem⟩
  | .ok place =>
      let root := FileTree.pathOf place
      match Discovery.find tree settings with
      | .error problem => ⟨[rootEvent root], .error problem⟩
      | .ok discovery =>
          let sources := Discovery.readable tree discovery.files
          let problems := discovery.problems ++ Discovery.unreadable tree discovery.files
          let total := sources.length
          let analysis : Analysis := ⟨root, settings.includeScenes⟩
          let run := analysis.run sources
          { events :=
              [rootEvent root, foundEvent total] ++ sourceEvents run.visited total ++
                [lastEvent total]
            outcome := .ok (reportOf run problems duration timestamp) }

/-- The number of sources and nothing else decides what is told after each. -/
theorem length_sourceEvents (visited total : Nat) :
    (sourceEvents visited total).length = visited := by
  simp [sourceEvents]

end Scan

end GodotGraph
