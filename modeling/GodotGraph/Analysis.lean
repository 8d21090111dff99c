import GodotGraph.Curation
import GodotGraph.Scene
import GodotGraph.Script
import GodotGraph.Sibling
import GodotGraph.TypeUsage

/-!
Contract: the analysis of all sources of a project.

Owns:
- the keys of sources;
- the two phases of a run: every file for itself, then the classes inside the files,
  curation and type usage over the whole table.

A run depends on its sources only. Whether files are read one after the other or at
the same time makes no difference to it.
-/

set_option autoImplicit false

namespace GodotGraph

/-- What a run needs to know besides the sources. -/
structure Analysis where
  sourceRoot : String
  includeScenes : Bool
  deriving DecidableEq, Repr

/-- What a run leaves behind: the records, the totals, and how many sources it went
through. -/
structure Analysis.Run where
  sourceRoot : String
  table : RecordTable
  tally : Tally
  visited : Nat
  deriving DecidableEq, Repr

namespace Analysis

/-- The last name of the source root, which every key starts with. -/
def rootName (analysis : Analysis) : String := Path.fileName analysis.sourceRoot

/-- The key of a source: its path from the directory above the root, or its whole path
if it lies elsewhere. -/
def keyFor (analysis : Analysis) (source : SourceFile) : String :=
  let base := (Path.parent? analysis.sourceRoot).getD analysis.sourceRoot
  (Key.ofPath? base source.path).getD (Text.replaceChar '\\' '/' source.path)

/-! ## Phase one: files -/

/-- Reads one source, if it is of a language that is wanted. -/
def extract? (analysis : Analysis) (source : SourceFile) : Option Extraction :=
  match source.language? with
  | none => none
  | some .script => some (Script.extract analysis.rootName source (analysis.keyFor source))
  | some .scene =>
      if analysis.includeScenes then
        some (Scene.extract analysis.rootName source (analysis.keyFor source))
      else none

/-- The table with a file and the entities of its own facts. -/
def insertExtraction (table : RecordTable) (extraction : Extraction) : RecordTable :=
  extraction.entities.foldl RecordTable.insertEntity (table.insertFile extraction.file)

/-! ## Phase two: the whole table -/

/-- The classes inside a file, and the counts made on the way. -/
def innerEntities (file : FileRecord) : List EntityRecord × List Count :=
  match file.language with
  | .script => Script.innerEntities file
  | .scene => ([], [])

def insertInner (table : RecordTable) (file : FileRecord) : RecordTable :=
  (Sibling.link (innerEntities file).1).foldl RecordTable.insertEntity table

def inferUsages (table : RecordTable) : RecordTable :=
  table.mapEntities (TypeUsage.dependencies table.entityKeys)

/-! ## The run -/

/-- The table after the first phase. -/
def fileTable (extractions : List Extraction) : RecordTable :=
  extractions.foldl insertExtraction RecordTable.empty

/-- The table after the second phase. -/
def finish (table : RecordTable) : RecordTable :=
  inferUsages (Curation.curateTable (table.files.foldl insertInner table))

/-- Reads all sources and builds the table. -/
def run (analysis : Analysis) (sources : List SourceFile) : Run :=
  let visits := sources.map analysis.extract?
  let extractions := visits.filterMap id
  let table := fileTable extractions
  { sourceRoot := analysis.sourceRoot
    table := finish table
    tally := Tally.ofCounts
      ((extractions.flatMap fun extraction => extraction.counts) ++
        table.files.flatMap fun file => (innerEntities file).2)
    visited := visits.length }

end Analysis

end GodotGraph
