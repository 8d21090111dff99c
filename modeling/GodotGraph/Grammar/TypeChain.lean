import GodotGraph.Grammar.Words

/-!
Contract: the grammar of dotted type names.

Owns: the chain of identifiers that a token starts with. Separators are captured
like identifiers, so that the captures joined give the name as written.
-/

set_option autoImplicit false

namespace GodotGraph.Grammar

open Pattern (CharClass)

/-- A dot and an upper-case word that ends the token: a value, not a type. -/
def enumValue : Pattern :=
  .seq [.word (CharClass.chars ".") (CharClass.uppercase.including "_0123456789"), .windowEnd]

/-- Identifiers with dots between them, up to an upper-case value at the end. -/
def typeChain : Grammar where
  name := "type chain"
  pattern := .seq [
    .named segmentCapture plainIdentifier,
    .zeroOrMore (.seq [
      .notAhead enumValue,
      .named segmentCapture (.word (CharClass.chars ".") (CharClass.chars ".")),
      .named segmentCapture plainIdentifier])]
  terminal := none

end GodotGraph.Grammar
