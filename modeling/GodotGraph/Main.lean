import GodotGraph.FileTree.Snapshot
import GodotGraph.Program
import Std.Time.DateTime.Timestamp

/-!
Contract: the command line program.

Owns: taking the surroundings of a call from the machine, and acting on the outcome.
-/

set_option autoImplicit false

namespace GodotGraph.Program

open FileTree.Snapshot (addPath addBelow)

/-- The environment variables that a call depends on. -/
def bindingsHere : IO (List (String × String)) :=
  variableNames.filterMapM fun name => do
    return (← IO.getEnv name).map fun value => (name, value)

def timestampNow : IO Timestamp := do
  let nanos : Int := (← Std.Time.Timestamp.now).toNanosecondsSinceUnixEpoch.val
  return ⟨nanos.fdiv 1000000000, (nanos.fmod 1000000000).toNat⟩

/-- The files that the settings for a command line can come from. -/
def settingsPaths (bindings : List (String × String)) (line : CommandLine) : List String :=
  line.config.toList ++ Settings.File.candidates (.ofVariables bindings)

def addScanned (tree : FileTree) (settings : Settings) : IO FileTree := do
  let tree ← addBelow settings.followLinks tree [] [settings.sourcePath]
  (settings.outputFile.toList).foldlM addPath tree

def treeFor (bindings : List (String × String)) (line : CommandLine) : IO FileTree := do
  let tree ← FileTree.Snapshot.workingDirectory
  let tree ← (settingsPaths bindings line).foldlM addPath tree
  match Settings.proposed tree (.ofVariables bindings) ⟨variableFamily, bindings⟩ line with
  | .ok layer => addScanned tree layer.resolve
  | .error _ => return tree

/-- The surroundings of a call. The duration is that of reading the file system. -/
def surroundingsFor (arguments : List String) : IO Surroundings := do
  let timestamp ← timestampNow
  let start ← IO.monoNanosNow
  let bindings ← bindingsHere
  let tree ←
    match CommandLine.ofArguments arguments with
    | .ok line => treeFor bindings line
    | .error _ => FileTree.Snapshot.workingDirectory
  let nanos := (← IO.monoNanosNow) - start
  return ⟨tree, bindings, timestamp, ⟨nanos / 1000000000, nanos % 1000000000⟩⟩

/-- Saves the file of an outcome. An outcome that cannot be saved is a failure. -/
def save (outcome : Outcome) : IO Outcome := do
  match outcome.saved with
  | none => return outcome
  | some (path, text) =>
      match ← (IO.FS.writeFile path text).toBaseIO with
      | .ok _ => return outcome
      | .error error =>
          return failed outcome.notices (.outputWrite path (FileTree.Snapshot.faultOf error))

def print (outcome : Outcome) : IO Unit := do
  for line in outcome.notices do
    IO.eprintln line
  let console ← IO.getStdout
  console.putStr outcome.output
  console.flush

end GodotGraph.Program

open GodotGraph in
def main (arguments : List String) : IO UInt32 := do
  let surroundings ← Program.surroundingsFor arguments
  let outcome ← Program.save (Program.call surroundings arguments)
  Program.print outcome
  return outcome.exitCode.toUInt32
