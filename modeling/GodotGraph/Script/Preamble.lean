import GodotGraph.Extraction
import GodotGraph.Grammar.Header

/-!
Contract: the preamble of a script.

Owns: the name and the parent that a script declares before its body.

The scan ends at the first keyword that opens a body, or as soon as both facts are
known. Until then a later declaration replaces an earlier one.
-/

set_option autoImplicit false

namespace GodotGraph.Script

/-- What a script says about itself. -/
structure Preamble where
  className : Option String
  parent : Option String
  deriving DecidableEq, Repr

namespace Preamble

def empty : Preamble := ⟨none, none⟩

def isComplete (preamble : Preamble) : Bool :=
  preamble.className.isSome && preamble.parent.isSome

/-- The facts after an attempt on a name or an inheritance line. A mismatch changes
nothing. -/
def absorb (preamble : Preamble) (anchor : String) (attempt : Attempt) : Preamble :=
  match attempt with
  | .error _ => preamble
  | .ok found =>
      if anchor = Grammar.classNameKeyword then
        { preamble with className := found.first? Grammar.nameCapture }
      else { preamble with parent := found.first? Grammar.parentCapture }

/-- The grammar for the declarations that an anchor opens, if it opens one. -/
def grammarFor? (anchor : String) : Option Grammar :=
  if anchor = Grammar.classNameKeyword then some Grammar.classIdentity
  else if anchor = Grammar.extendsKeyword then some Grammar.inheritance
  else none

/-- Reads windows from some known facts on; gives the final facts and the counts. -/
def scan (preamble : Preamble) : List Token.Window → Preamble × List Count
  | [] => (preamble, [])
  | window :: rest =>
      match grammarFor? window.anchor with
      | some grammar =>
          let attempt := grammar.parseWindow window
          let next := preamble.absorb window.anchor attempt
          if Count.ofAttempt attempt = .hit && next.isComplete then (next, [.hit])
          else
            let later := scan next rest
            (later.1, Count.ofAttempt attempt :: later.2)
      | none =>
          if Grammar.bodyKeywords.contains window.anchor then (preamble, [])
          else scan preamble rest

end Preamble

/-- The preamble of a stream, and the counts made while reading it. -/
def preamble (tokens : List String) : Preamble × List Count :=
  Preamble.scan Preamble.empty (Token.windows tokens)

end GodotGraph.Script
