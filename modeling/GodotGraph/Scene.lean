import GodotGraph.Extraction
import GodotGraph.Grammar.Resource

/-!
Contract: reading scenes and text resources.

Owns: the references that the declarations of external resources make, and the
record of a scene.

Only scripts and packed scenes count as dependencies. A scene declares no entities.
-/

set_option autoImplicit false

namespace GodotGraph.Scene

/-- The types of resources that are dependencies. -/
def dependencyTypes : List String := ["Script", "PackedScene"]

/-- The token that opens a declaration. -/
def declarationStart : String := "["

/-- The window opens the declaration of an external resource. -/
def opensResource (window : Token.Window) : Bool :=
  window.anchor = declarationStart && window.peek? 0 = some Grammar.resourceKeyword

/-- The outcomes of all resource declarations of a stream. -/
def resourceAttempts (tokens : List String) : List Attempt :=
  Grammar.externalResource.attempts opensResource tokens

/-- The reference that a declaration makes, if it is of a script or a scene of the
project. -/
def resourceReference? (found : Grammar.Match) : Option Reference :=
  match found.first? Grammar.typeCapture, found.first? Grammar.pathCapture with
  | some type, some path =>
      let root := found.first? Grammar.rootCapture
      if dependencyTypes.contains type && !(root.any Grammar.foreignSchemes.contains) then
        some ⟨.resource type, path, root.isSome⟩
      else none
  | _, _ => none

/-- The references of all resource declarations of a stream, in stream order. -/
def resources (tokens : List String) : List Reference :=
  (matchesOf (resourceAttempts tokens)).filterMap resourceReference?

/-- The record of a scene. Its module is named like the file. -/
def extract (rootName : String) (source : SourceFile) (key : String) : Extraction :=
  let tokens := Token.ofSource source.text
  let targets := (resources tokens).map fun reference =>
    reference.resolve rootName (Key.directory key)
  { file :=
      { key := key
        path := source.path
        fileName := source.fileName
        moduleName := (Path.stem? source.path).getD ""
        language := .scene
        tokens := tokens
        source := ""
        dependencies := addAllOnce [] targets }
    entities := []
    counts := countsOf (resourceAttempts tokens) }

end GodotGraph.Scene
