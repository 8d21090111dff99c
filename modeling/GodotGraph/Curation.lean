import GodotGraph.Record.Table

/-!
Contract: matching dependencies to the files of a project.

Owns: the candidate that a dependency is searched by, the first known key that
contains it, and the curated dependency lists of all files.
-/

set_option autoImplicit false

namespace GodotGraph.Curation

/-- Extensions that mark a dependency as a file. -/
def knownExtensions : List String := ["gd", "tscn", "tres"]

/-- The dependency is written with a known extension. -/
def namesFile (dependency : String) : Bool :=
  (Path.extension? dependency).any knownExtensions.contains

/-- The text that keys are searched for. A dotted name becomes a path with the
extension of the language. -/
def candidate (language : Language) (dependency : String) : String :=
  if namesFile dependency then dependency
  else Text.replaceChar '.' '/' dependency ++ "." ++ language.extension

/-- The first known key that contains the candidate, or the dependency as it is. -/
def curate (known : List String) (language : Language) (dependency : String) : String :=
  let wanted := (candidate language dependency).toList
  (known.find? fun key => Text.occursIn wanted key.toList).getD dependency

/-- The curated dependencies of a file, each once. -/
def dependencies (known : List String) (file : FileRecord) : List String :=
  addAllOnce [] (file.dependencies.map (curate known file.language))

def curateTable (table : RecordTable) : RecordTable :=
  table.mapFiles (dependencies table.fileKeys)

/-- The number of dependencies that name a known file after curation. A dependency
that two names lead to counts twice. -/
def matchedCount (table : RecordTable) : Nat :=
  (table.files.flatMap fun file =>
    file.dependencies.map (curate table.fileKeys file.language)).countP table.fileKeys.contains

end GodotGraph.Curation
