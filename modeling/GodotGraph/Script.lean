import GodotGraph.Grammar.Resource
import GodotGraph.Scope.Splitter
import GodotGraph.Script.Preamble

/-!
Contract: reading scripts.

Owns:
- the references in load calls;
- the record of a script, and the entity of a script that has a name;
- the entities of the classes inside a script, with their parents.

Does not own: parents that name a class of the same script. They are linked when all
classes of the script are known.
-/

set_option autoImplicit false

namespace GodotGraph.Script

/-! ## Load calls -/

/-- The reference that a load call makes. -/
def loadReference? (found : Grammar.Match) : Option Reference :=
  (found.first? Grammar.pathCapture).map fun path =>
    ⟨.load, path, found.has Grammar.rootCapture⟩

def loadAttempts (tokens : List String) : List Attempt :=
  Grammar.loadReference.attempts
    (fun window => Grammar.loadKeywords.contains window.anchor) tokens

/-- The references of all load calls of a stream, in stream order. -/
def loads (tokens : List String) : List Reference :=
  (matchesOf (loadAttempts tokens)).filterMap loadReference?

/-! ## The script itself -/

/-- The record of a script and, if it has a name, its entity. The parent comes first
among the dependencies of the file. -/
def extract (rootName : String) (source : SourceFile) (key : String) : Extraction :=
  let tokens := Token.ofSource source.text
  let scanned := preamble tokens
  let facts := scanned.1
  let targets := (loads tokens).map fun reference =>
    reference.resolve rootName (Key.directory key)
  let parents := facts.parent.toList
  { file :=
      { key := key
        path := source.path
        fileName := source.fileName
        moduleName := facts.className.getD ""
        language := .script
        tokens := tokens
        source := source.text
        dependencies := addAllOnce [] (parents ++ targets) }
    entities := facts.className.toList.map fun name =>
      { localName := name
        moduleName := name
        uniqueName := name
        inheritance := parents
        dependencies := addAllOnce [] targets
        fileKey := key
        language := .script
        tokens := tokens }
    counts := scanned.2 ++ countsOf (loadAttempts tokens) }

/-! ## Classes inside a script -/

/-- The name of a class inside a module, if the module has a name. -/
def uniqueName (moduleName localName : String) : String :=
  if moduleName = "" then localName else moduleName ++ "." ++ localName

/-- Cuts a script at the classes it declares. -/
def splitter : Scope.Splitter where
  anchors := [Grammar.classKeyword]
  header := Grammar.entityHeader
  comments := Scope.CommentMarkers.lineOnly "#"
  mode := .indentation
  padding := Token.Padding.godot

/-- The outcomes of all class headers of a stream. -/
def headerAttempts (tokens : List String) : List Attempt :=
  Grammar.classHeader.attempts (fun window => window.anchor = Grammar.classKeyword) tokens

/-- The parent in a header, if the header has the given name. -/
def parentOf? (localName : String) (found : Grammar.Match) : Option String :=
  if found.first? Grammar.nameCapture = some localName then
    found.first? Grammar.parentCapture
  else none

/-- The entity with the parents that headers of its own name declare. -/
def withParents (entity : EntityRecord) : EntityRecord :=
  let declared := (matchesOf (headerAttempts entity.tokens)).filterMap (parentOf? entity.localName)
  { entity with inheritance := addAllOnce entity.inheritance declared }

/-- The entity of a class body, before its parents are known. -/
def entityOfBody (file : FileRecord) (body : Scope.Body) : EntityRecord :=
  { localName := body.name
    moduleName := file.moduleName
    uniqueName := uniqueName file.moduleName body.name
    inheritance := []
    dependencies := []
    fileKey := file.key
    language := .script
    tokens := body.tokens }

/-- The counts of a region whose header gives no name: its first window only. -/
def rejectedCounts (tokens : List String) : List Count :=
  ((Token.windows tokens).take 1).map fun window =>
    Count.ofAttempt (Grammar.classHeader.parseWindow window)

/-- The entities of the classes inside a script, and the counts made on the way. -/
def innerEntities (file : FileRecord) : List EntityRecord × List Count :=
  let split := splitter.split file.source
  (split.bodies.map fun body => withParents (entityOfBody file body),
    split.rejected.flatMap rejectedCounts ++
      split.bodies.flatMap fun body => countsOf (headerAttempts body.tokens))

end GodotGraph.Script
