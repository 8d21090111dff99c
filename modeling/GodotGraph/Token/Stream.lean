import GodotGraph.Text.Blank

/-!
Contract: the flat token stream of a source text.

Owns:
- padding, the table of characters that are replaced before the text is cut;
- the padding that sets Godot punctuation apart;
- cutting a text into words and newline tokens.

Does not own: looking ahead in a stream, or what any token means.
-/

set_option autoImplicit false

namespace GodotGraph.Token

/-- The token that stands for a line end. -/
def newline : String := "\n"

/-- Replacements for single characters, at most one for each character. -/
structure Padding where
  entries : List (Char × String)
  deriving DecidableEq, Repr

namespace Padding

def empty : Padding := ⟨[]⟩

/-- Writes an entry in place of the one for the same character, or after all others. -/
def setEntry (c : Char) (replacement : String) : List (Char × String) → List (Char × String)
  | [] => [(c, replacement)]
  | entry :: rest =>
      if entry.1 = c then (c, replacement) :: rest
      else entry :: setEntry c replacement rest

def set (padding : Padding) (c : Char) (replacement : String) : Padding :=
  ⟨setEntry c replacement padding.entries⟩

/-- What stands for the character, if it is replaced. -/
def replacement? (padding : Padding) (c : Char) : Option String :=
  (padding.entries.find? fun entry => entry.1 = c).map Prod.snd

def isEmpty (padding : Padding) : Bool :=
  padding.entries.isEmpty

/-- The characters that end a word in Godot scripts and scenes. -/
def godotMarks : List Char :=
  [':', ';', '\x7b', '\x7d', '(', ')', '[', ']', '?', '!', ',', '<', '>', '"']

/-- Every Godot mark gets a space on both sides. -/
def godot : Padding :=
  godotMarks.foldl (fun padding mark => padding.set mark (String.ofList [' ', mark, ' '])) empty

/-- What the character contributes to the padded text. -/
def expand (padding : Padding) (c : Char) : List Char :=
  match padding.replacement? c with
  | some replacement => replacement.toList
  | none => [c]

def pad (padding : Padding) (text : List Char) : List Char :=
  text.flatMap padding.expand

/-- The last replacement set for a character is the one in force. -/
theorem replacement?_set_self (padding : Padding) (c : Char) (replacement : String) :
    (padding.set c replacement).replacement? c = some replacement := by
  cases padding with
  | mk entries =>
      simp only [set, replacement?]
      induction entries with
      | nil => simp [setEntry]
      | cons entry rest inductionHypothesis =>
          unfold setEntry
          by_cases same : entry.1 = c
          · simp [same]
          · simpa [same] using inductionHypothesis

end Padding

/-- Tokens found so far, latest first, and the word still being read. -/
structure Reading where
  found : List String
  word : String
  deriving DecidableEq, Repr

namespace Reading

def close (reading : Reading) : List String :=
  if reading.word.isEmpty then reading.found else reading.word :: reading.found

def step (reading : Reading) (c : Char) : Reading :=
  if c = '\n' then ⟨newline :: reading.close, ""⟩
  else if Text.isBlank c then ⟨reading.close, ""⟩
  else ⟨reading.found, reading.word.push c⟩

end Reading

/-- The tokens of a text whose padding is already made. -/
def ofPadded (text : List Char) : List String :=
  (text.foldl Reading.step ⟨[], ""⟩).close.reverse

/-- The tokens of a text: words cut at blanks, and one token for each line end. -/
def ofText (padding : Padding) (text : String) : List String :=
  ofPadded (padding.pad text.toList)

def ofSource (text : String) : List String :=
  ofText Padding.godot text

end GodotGraph.Token
