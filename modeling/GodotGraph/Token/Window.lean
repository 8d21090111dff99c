import GodotGraph.Text.Quoted
import GodotGraph.Token.Stream

/-!
Contract: looking ahead from every token of a stream.

Owns:
- the window of a token, which is the token and all tokens after it;
- the text of a window, cut after its first terminal token;
- the short form of a window for messages.

Does not own: matching the text of a window.
-/

set_option autoImplicit false

namespace GodotGraph.Token

/-- A token of a stream with its position and the tokens that follow it. -/
structure Window where
  index : Nat
  anchor : String
  following : List String
  deriving DecidableEq, Repr

/-- The windows of a stream whose first token has the given position. -/
def windowsFrom (index : Nat) : List String → List Window
  | [] => []
  | anchor :: following => ⟨index, anchor, following⟩ :: windowsFrom (index + 1) following

/-- One window for each token, in stream order. -/
def windows (tokens : List String) : List Window :=
  windowsFrom 0 tokens

/-- The tokens up to and including the first terminal; all of them if there is none. -/
def through (terminal : String) : List String → List String
  | [] => []
  | token :: rest => if token = terminal then [token] else token :: through terminal rest

/-- The tokens that belong to a window with an optional terminal. -/
def within (terminal : Option String) (tokens : List String) : List String :=
  match terminal with
  | some token => through token tokens
  | none => tokens

def join (tokens : List String) : String :=
  String.intercalate " " tokens

namespace Window

/-- The text that a grammar with this terminal looks at. -/
def text (window : Window) (terminal : Option String) : String :=
  join (window.anchor :: within terminal window.following)

/-- The token so many places after the anchor's successor. -/
def peek? (window : Window) (distance : Nat) : Option String :=
  window.following[distance]?

/-- The anchor and the next few tokens, quoted; a line end is shown as an escape. -/
def excerpt (window : Window) (limit : Nat) : String :=
  let shown := (window.following.take limit).map fun token =>
    if token = newline then "\\n" else token
  window.anchor ++ " " ++ Text.quotedList shown

end Window

/-- There are as many windows as tokens. -/
theorem length_windowsFrom (index : Nat) (tokens : List String) :
    (windowsFrom index tokens).length = tokens.length := by
  induction tokens generalizing index with
  | nil => rfl
  | cons anchor following inductionHypothesis => simp [windowsFrom, inductionHypothesis]

/-- A terminal never adds tokens to a window. -/
theorem through_isPrefix (terminal : String) (tokens : List String) :
    through terminal tokens <+: tokens := by
  induction tokens with
  | nil => simp [through]
  | cons token rest inductionHypothesis =>
      unfold through
      split
      · exact ⟨rest, rfl⟩
      · exact (List.cons_prefix_cons).2 ⟨rfl, inductionHypothesis⟩

end GodotGraph.Token
