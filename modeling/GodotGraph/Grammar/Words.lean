import GodotGraph.Grammar

/-!
Contract: the words that the grammars of scripts and scenes share.

Owns: the keywords of a script, the names of captures, and the patterns for
identifiers, paths, plain values and schemes.

Every grammar reads the padded token stream, so punctuation stands apart: a path
under the project scheme arrives as three tokens, and a quoted word as three.
-/

set_option autoImplicit false

namespace GodotGraph.Grammar

open Pattern (CharClass)

/-! ## Keywords -/

/-- Opens an inner class. -/
def classKeyword : String := "class"

/-- Gives a script its name. -/
def classNameKeyword : String := "class_name"

/-- Names the parent of a script or an inner class. -/
def extendsKeyword : String := "extends"

/-- The keywords that open the body of a script and end its preamble. -/
def bodyKeywords : List String := ["enum", "func", "var", "const", classKeyword]

/-- The calls that load a resource. -/
def loadKeywords : List String := ["load", "preload"]

/-- Heads the declaration of an external resource in a scene. -/
def resourceKeyword : String := "ext_resource"

/-- Closes a class header. -/
def headerEnd : String := ":"

/-! ## Captures -/

/-- Names of captures, one for each fact a grammar finds. -/
def nameCapture : String := "name"

/-- The parent in an inheritance clause. -/
def parentCapture : String := "parent"

/-- The scheme before a resource path. -/
def rootCapture : String := "root"

/-- A resource path without its scheme. -/
def pathCapture : String := "path"

def typeCapture : String := "type"

def uidCapture : String := "uid"

def idCapture : String := "id"

/-- An identifier of a dotted chain, or the dots between two. -/
def segmentCapture : String := "segment"

/-! ## Schemes -/

/-- The scheme of paths that start at the project root. -/
def projectScheme : String := "res"

/-- The scheme of references by unique number. -/
def uidScheme : String := "uid"

/-- The scheme of files outside the project. -/
def userScheme : String := "user"

/-- The schemes that never name a project file. -/
def foreignSchemes : List String := [uidScheme, userScheme]

/-! ## Shared patterns -/

/-- A keyword that no identifier may equal. -/
def reservedWord : Pattern :=
  .first ((bodyKeywords ++ [extendsKeyword, classNameKeyword]).map .keyword)

/-- A letter or underscore, then letters, digits and underscores. -/
def plainIdentifier : Pattern :=
  .word (CharClass.letters.including "_") (CharClass.alphanumeric.including "_")

/-- An identifier that is no reserved word. -/
def identifier : Pattern :=
  .seq [.notAhead reservedWord, plainIdentifier]

/-- A file path, or the part of one after its scheme. -/
def pathWord : Pattern :=
  .word (CharClass.alphanumeric.including "-_/.") (CharClass.alphanumeric.including "-_/.")

/-- The value of a field of a resource declaration. -/
def valueWord : Pattern :=
  .word (CharClass.alphanumeric.including "_") (CharClass.alphanumeric.including "_-.")

/-- The marker between a scheme and its path, as two tokens. -/
def schemeMark : List Pattern := [.literal ":", .literal "//"]

def scheme (name : String) : Pattern :=
  .seq (.literal name :: schemeMark)

/-- The extends keyword and the parent it names. -/
def inheritanceClause : Pattern :=
  .seq [.keyword extendsKeyword, .named parentCapture identifier]

end GodotGraph.Grammar
