import GodotGraph.Proofs.Grammar.Declaration
import GodotGraph.Proofs.Scope.Region
import GodotGraph.Proofs.Text.Pieces
import GodotGraph.Script

/-!
Contract: outlines, which are the classes of a script with the lines around them.

Owns:
- outlines as forests of class declarations, and the lines they are written as;
- the layout that makes the forest visible: siblings side by side, bodies further in;
- the tokens of a header line, and what the splitter makes of lines.

A header ends at its colon. Every other line is only asked to open no class and to keep
to the body it stands in; a line that is blank without its comment may stand anywhere.
-/

set_option autoImplicit false

namespace GodotGraph

namespace Script

open Grammar (Identifier)
open Token (newline ofGodot)

/-! ## Outlines -/

/-- Classes and the lines around them. -/
inductive Outline where
  /-- Nothing comes any more. -/
  | done
  /-- A line that opens no class. -/
  | line (text : List Char) (rest : Outline)
  /-- A class with its body, and what comes after the body. -/
  | declare (indent : List Char) (name : Identifier) (parent : Option Identifier)
      (body rest : Outline)
  deriving DecidableEq, Repr

namespace Outline

/-- How a header names the parent. -/
def parentText : Option Identifier → List Char
  | none => []
  | some parent => ' ' :: (Grammar.extendsKeyword.toList ++ ' ' :: parent.letters)

/-- The header of a class. -/
def headerText (name : Identifier) (parent : Option Identifier) : List Char :=
  Grammar.classKeyword.toList ++ ' ' :: (name.letters ++ (parentText parent ++ [':']))

/-- The lines of an outline. -/
def lines : Outline → List (List Char)
  | done => []
  | line text rest => text :: rest.lines
  | declare indent name parent body rest =>
      (indent ++ headerText name parent) :: (body.lines ++ rest.lines)

/-- The outline as a text, every line closed by a newline. -/
def render (outline : Outline) : String :=
  String.ofList (outline.lines.flatMap fun line => line ++ ['\n'])

/-- The declared classes with their parents, every class before those inside it. -/
def declarations : Outline → List (Identifier × Option Identifier)
  | done => []
  | line _ rest => rest.declarations
  | declare _ name parent body rest =>
      (name, parent) :: (body.declarations ++ rest.declarations)

/-- The names of all declared classes. -/
def names (outline : Outline) : List Identifier :=
  outline.declarations.map Prod.fst

/-- No class is named like a class inside it. -/
def apart : Outline → Bool
  | done => true
  | line _ rest => rest.apart
  | declare _ name _ body rest => !body.names.contains name && body.apart && rest.apart

end Outline

/-! ## Layout -/

/-- The line without its comment. -/
def bareLine (line : List Char) : List Char :=
  Scope.cutLine "#".toList line

/-- The line opens no class anywhere. -/
def isPlain (line : List Char) : Bool :=
  !(ofGodot (bareLine line)).contains Grammar.classKeyword

/-- The line is blank, or it is at least so far in. -/
def fits (floor : Nat) (line : List Char) : Bool :=
  Text.allBlank (bareLine line) || decide (floor ≤ Scope.indentation (bareLine line))

namespace Outline

/-- The indentation of the first class. -/
def width : Outline → Nat
  | done => 0
  | line _ rest => rest.width
  | declare indent _ _ _ _ => Scope.indentation indent

/-- All lines are at least so far in, and all classes exactly so far; their bodies are
further in, in the same way. -/
def laid (floor width : Nat) : Outline → Bool
  | done => true
  | line text rest => isPlain text && fits floor text && laid floor width rest
  | declare indent _ _ body rest =>
      (indent.all fun c => Text.isBlank c && c ≠ '\n') &&
        decide (Scope.indentation indent = width) && decide (floor ≤ width) &&
        laid (width + 1) body.width body && laid floor width rest

/-- An outline that can be read back from its lines. -/
structure WellFormed (outline : Outline) : Prop where
  laid : outline.laid 0 outline.width = true
  apart : outline.apart = true

instance (outline : Outline) : Decidable outline.WellFormed :=
  decidable_of_iff (outline.laid 0 outline.width = true ∧ outline.apart = true)
    ⟨fun both => ⟨both.1, both.2⟩, fun wellFormed => ⟨wellFormed.laid, wellFormed.apart⟩⟩

/-- A text with these lines is easily had, unless a line holds a line end. -/
theorem lines_render {outline : Outline}
    (clean : ∀ line ∈ outline.lines, '\n' ∉ line ∧ line.getLast? ≠ some '\r') :
    Text.lines outline.render.toList = outline.lines := by
  rw [render, String.toList_ofList]
  exact Text.lines_flatMap_newline clean

end Outline

/-! ## Header lines -/

theorem ofGodot_letters (identifier : Identifier) :
    ofGodot identifier.letters = [identifier.text] := by
  have none : Token.Padding.godotMarks.any Grammar.continuesName = false := by decide
  have noMark : ∀ mark ∈ Token.Padding.godotMarks, Grammar.continuesName mark = false := by
    simpa using none
  refine Token.ofGodot_word identifier.letters_ne_nil ?_ ?_
  · intro c member
    exact Grammar.isBlank_of_continuesName (identifier.continuesName_of_mem c member)
  · intro c member isMark
    have continues := identifier.continuesName_of_mem c member
    rw [noMark c isMark] at continues
    exact absurd continues (by decide)

theorem ofGodot_parentText (parent : Option Identifier) (first : List Char) :
    ofGodot (first ++ (Outline.parentText parent ++ [':'])) =
      ofGodot first ++ (Grammar.parentTokens parent ++ [Grammar.headerEnd]) := by
  have colon : ':' ∈ Token.Padding.godotMarks := by decide
  cases parent with
  | none => exact Token.ofGodot_append_mark first [] colon
  | some identifier =>
      have keyword : ofGodot Grammar.extendsKeyword.toList = [Grammar.extendsKeyword] := by
        decide +kernel
      have shape : first ++ (Outline.parentText (some identifier) ++ [':']) =
          first ++ ' ' :: (Grammar.extendsKeyword.toList ++ ' ' :: (identifier.letters ++ [':'])) := by
        simp [Outline.parentText]
      rw [shape, Token.ofGodot_append_blank _ _ (by decide) (by decide),
        Token.ofGodot_append_blank _ _ (by decide) (by decide), keyword,
        Token.ofGodot_append_mark _ [] colon, ofGodot_letters]
      rfl

theorem ofGodot_headerText {indent : List Char}
    (blank : ∀ c ∈ indent, Text.isBlank c = true ∧ c ≠ '\n') (name : Identifier)
    (parent : Option Identifier) :
    ofGodot (indent ++ Outline.headerText name parent) = Grammar.headerTokens name parent := by
  have keyword : ofGodot Grammar.classKeyword.toList = [Grammar.classKeyword] := by
    decide +kernel
  rw [Token.ofGodot_blanks_append _ blank, Outline.headerText,
    Token.ofGodot_append_blank _ _ (by decide) (by decide), keyword, ofGodot_parentText,
    ofGodot_letters]
  rfl

theorem bareLine_header {indent : List Char}
    (blank : ∀ c ∈ indent, Text.isBlank c = true ∧ c ≠ '\n') (name : Identifier)
    (parent : Option Identifier) :
    bareLine (indent ++ Outline.headerText name parent) =
      indent ++ Outline.headerText name parent := by
  have inIndent : '#' ∉ indent := by
    intro member
    exact absurd (blank '#' member).1 (by decide)
  have inName : ∀ identifier : Identifier, '#' ∉ identifier.letters := by
    intro identifier member
    exact absurd (identifier.continuesName_of_mem '#' member) (by decide)
  have absent : '#' ∉ indent ++ Outline.headerText name parent := by
    cases parent with
    | none => simp [Outline.headerText, Outline.parentText, inIndent, inName, Grammar.classKeyword]
    | some identifier =>
        simp [Outline.headerText, Outline.parentText, inIndent, inName, Grammar.classKeyword,
          Grammar.extendsKeyword]
  exact Scope.cutLine_of_not_mem absent

theorem indentation_header {indent : List Char}
    (blank : ∀ c ∈ indent, Text.isBlank c = true ∧ c ≠ '\n') (name : Identifier)
    (parent : Option Identifier) :
    Scope.indentation (indent ++ Outline.headerText name parent) = Scope.indentation indent :=
  Scope.indentation_append (fun c member => (blank c member).1) _ (by decide)

/-! ## Lines as the splitter sees them -/

theorem startsAtLine_header {indent : List Char}
    (blank : ∀ c ∈ indent, Text.isBlank c = true ∧ c ≠ '\n') (name : Identifier)
    (parent : Option Identifier) :
    splitter.startsAtLine (indent ++ Outline.headerText name parent) = true := by
  have word : Text.firstWord (indent ++ Outline.headerText name parent) =
      some Grammar.classKeyword.toList := by
    rw [Text.firstWord, Text.trimStart_append_of_blank fun c member => (blank c member).1]
    rfl
  rw [Scope.Splitter.startsAtLine, word]
  decide +kernel

/-- A plain line opens none: its first word is a part of it. -/
theorem startsAtLine_plain {line : List Char} (plain : isPlain line = true) :
    splitter.startsAtLine (bareLine line) = false := by
  have absent : Grammar.classKeyword ∉ ofGodot (bareLine line) := by simpa [isPlain] using plain
  rw [Scope.Splitter.startsAtLine]
  cases found : Text.firstWord (bareLine line) with
  | none => rfl
  | some word =>
      have inLine := Token.ofGodot_firstWord found
      dsimp only
      cases tokens : Token.ofPadded (splitter.padding.pad word) with
      | nil => rfl
      | cons token others =>
          have member : token ∈ ofGodot (bareLine line) :=
            inLine.subset (by rw [ofGodot]; exact tokens ▸ List.mem_cons_self)
          have differs : token ≠ Grammar.classKeyword := by
            rintro rfl
            exact absent member
          simpa [Scope.Splitter.isAnchor, splitter] using differs

end Script

end GodotGraph
