import GodotGraph.Grammar.Words

/-!
Contract: grammars for references to resources.

Owns: the load call of a script and the resource declaration of a scene.
-/

set_option autoImplicit false

namespace GodotGraph.Grammar

/-- A call that loads a path of the project. Paths under the user scheme are refused. -/
def loadReference : Grammar where
  name := "load reference"
  pattern := .seq [
    .first (loadKeywords.map .keyword),
    .literal "(",
    .literal "\"",
    .notAhead (scheme userScheme),
    .optional (.seq (.named rootCapture (.literal projectScheme) :: schemeMark)),
    .named pathCapture pathWord,
    .literal "\"",
    .literal ")"]
  terminal := some ")"

/-- A key, an equals sign, and a value with or without quotes. -/
def field (key : String) (value : Pattern) : Pattern :=
  .seq [.keyword key, .literal "=", .first [value.quoted, value]]

/-- A path with any of the three schemes or none. -/
def resourcePath : Pattern :=
  .seq [
    .optional (.seq (.named rootCapture
      (.first ((projectScheme :: foreignSchemes).map .literal)) :: schemeMark)),
    .named pathCapture pathWord]

/-- A unique number under its scheme. -/
def uidValue : Pattern :=
  .named uidCapture (.seq [scheme uidScheme, valueWord])

/-- The declaration of an external resource, with its fields in any order. -/
def externalResource : Grammar where
  name := "external resource"
  pattern := .seq [
    .literal "[",
    .keyword resourceKeyword,
    .anyOrder [
      field "type" (.named typeCapture valueWord),
      .optional (field "uid" uidValue),
      field "path" resourcePath,
      field "id" (.named idCapture valueWord)],
    .literal "]"]
  terminal := some "]"

end GodotGraph.Grammar
