import GodotGraph.Key
import GodotGraph.Language

/-!
Contract: records of files and of the classes declared in them.

Owns:
- source files, file records, entity records and their keys;
- dependency lists, which name everything once.
-/

set_option autoImplicit false

namespace GodotGraph

structure SourceFile where
  path : String
  text : String
  deriving DecidableEq, Repr

namespace SourceFile

def fileName (file : SourceFile) : String := Path.fileName file.path

def language? (file : SourceFile) : Option Language := Language.ofPath? file.path

end SourceFile

/-- The names with one more at the end, unless it is among them. -/
def addOnce (names : List String) (name : String) : List String :=
  if names.contains name then names else names ++ [name]

/-- The names of a list in order of their first occurrence, after some others. -/
def addAllOnce (names more : List String) : List String :=
  more.foldl addOnce names

/-- What is known about one file of a project. -/
structure FileRecord where
  key : String
  path : String
  fileName : String
  moduleName : String
  language : Language
  tokens : List String
  /-- The text kept for cutting into scopes. -/
  source : String
  dependencies : List String
  deriving DecidableEq, Repr

namespace FileRecord

def directory (file : FileRecord) : String := Key.directory file.key

/-- The file with one more dependency, unless it has it already. -/
def depend (file : FileRecord) (name : String) : FileRecord :=
  { file with dependencies := addOnce file.dependencies name }

end FileRecord

/-- What is known about one class of a project. -/
structure EntityRecord where
  localName : String
  moduleName : String
  uniqueName : String
  inheritance : List String
  dependencies : List String
  fileKey : String
  language : Language
  tokens : List String
  deriving DecidableEq, Repr

namespace EntityRecord

/-- The entity answers to the name. -/
def isNamed (entity : EntityRecord) (name : String) : Bool :=
  name = entity.uniqueName || name = entity.localName

def depend (entity : EntityRecord) (name : String) : EntityRecord :=
  { entity with dependencies := addOnce entity.dependencies name }

end EntityRecord

inductive Record where
  | file (record : FileRecord)
  | entity (record : EntityRecord)
  deriving DecidableEq, Repr

namespace Record

/-- The key that the record is stored under. -/
def key : Record → String
  | file record => record.key
  | entity record => record.uniqueName

def kindName : Record → String
  | file _ => "file"
  | entity _ => "entity"

def isFile : Record → Bool
  | file _ => true
  | entity _ => false

def file? : Record → Option FileRecord
  | file record => some record
  | entity _ => none

def entity? : Record → Option EntityRecord
  | file _ => none
  | entity record => some record

end Record

/-- A name that was added is in the list, and the names before it stay. -/
theorem mem_addOnce {names : List String} {name other : String} :
    other ∈ addOnce names name ↔ other ∈ names ∨ other = name := by
  unfold addOnce
  split
  · next present =>
      have : name ∈ names := by simpa using present
      constructor
      · exact Or.inl
      · rintro (member | rfl)
        · exact member
        · exact this
  · simp

/-- A list without repetition stays one. -/
theorem nodup_addOnce {names : List String} (name : String) (distinct : names.Nodup) :
    (addOnce names name).Nodup := by
  unfold addOnce
  split
  · exact distinct
  · next absent =>
      have fresh : name ∉ names := by simpa using absent
      exact List.nodup_append.2 ⟨distinct, by simp, by
        intro left inNames right isName same
        rw [List.mem_singleton] at isName
        exact fresh (isName ▸ same ▸ inNames)⟩

end GodotGraph
