import GodotGraph.Grammar.Words

/-!
Contract: grammars for the headers of scripts and classes.

Owns: the script name, the inheritance line, and two readings of a class header,
one that finds the parent too and one that finds the name only.
-/

set_option autoImplicit false

namespace GodotGraph.Grammar

/-- The name of a script. -/
def classIdentity : Grammar where
  name := "class identity"
  pattern := .seq [.keyword classNameKeyword, .named nameCapture identifier]
  terminal := some Token.newline

/-- The parent of a script. -/
def inheritance : Grammar where
  name := "inheritance"
  pattern := inheritanceClause
  terminal := some Token.newline

/-- An inner class: its name and, before or after it, its parent. -/
def classHeader : Grammar where
  name := "class header"
  pattern := .seq [
    .keyword classKeyword,
    .anyOrder [.named nameCapture identifier, .optional inheritanceClause],
    .skipTo (.literal headerEnd)]
  terminal := some headerEnd

/-- An inner class: its name, which must come first. -/
def entityHeader : Grammar where
  name := "entity header"
  pattern := .seq [.keyword classKeyword, .named nameCapture identifier]
  terminal := some headerEnd

end GodotGraph.Grammar
