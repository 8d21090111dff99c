import GodotGraph.Pattern.Basic
import GodotGraph.Token.Window

/-!
Contract: grammars, which are patterns with a name and a window.

Owns: matching the text of a window from its start, and looking captures up by
name.

Text after the match is allowed, unless the pattern itself asks for the end of the
window.
-/

set_option autoImplicit false

namespace GodotGraph

/-- A named pattern and the token that closes its windows. -/
structure Grammar where
  name : String
  pattern : Pattern
  terminal : Option String
  deriving Repr

namespace Grammar

/-- The captures of a successful match, and the byte after its last character. -/
structure Match where
  captures : Pattern.Trail
  stop : Nat
  deriving DecidableEq, Repr

namespace Match

/-- The first value captured under a name. -/
def first? (found : Match) (name : String) : Option String :=
  (found.captures.find? fun capture => capture.name = name).map fun capture => capture.value

def all (found : Match) (name : String) : List String :=
  (found.captures.filter fun capture => capture.name = name).map fun capture => capture.value

def has (found : Match) (name : String) : Bool :=
  found.captures.any fun capture => capture.name = name

end Match

/-- Matches a text from its start. -/
def parse (grammar : Grammar) (text : String) : Except Pattern.Mismatch Match :=
  match grammar.pattern.matcher (Pattern.Cursor.start text.toList) [] with
  | (.ok stop, captures) => .ok ⟨captures, stop.offset⟩
  | (.error mismatch, _) => .error mismatch

/-- Matches a window, cut after the terminal of the grammar. -/
def parseWindow (grammar : Grammar) (window : Token.Window) : Except Pattern.Mismatch Match :=
  grammar.parse (window.text grammar.terminal)

end Grammar

end GodotGraph
