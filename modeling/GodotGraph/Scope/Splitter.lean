import GodotGraph.Grammar.Words
import GodotGraph.Scope.Comment

/-!
Contract: cutting a source text into the bodies of its declarations.

Owns:
- candidates, which are the regions that start at an anchor;
- regions by indentation, over the lines of a text;
- regions by braces, over its tokens;
- naming the candidates by a header grammar.

A candidate whose header gives no name is rejected, unless it lies inside one that
has a name.
-/

set_option autoImplicit false

namespace GodotGraph.Scope

/-- A declaration with all tokens from its anchor to the end of its body. -/
structure Body where
  name : String
  tokens : List String
  deriving DecidableEq, Repr

/-- The named bodies of a text, and the regions that have no name. -/
structure Split where
  bodies : List Body
  rejected : List (List String)
  deriving DecidableEq, Repr

/-- A region that starts at an anchor: its first position, the position after its
last, and its tokens. -/
structure Candidate where
  start : Nat
  stop : Nat
  tokens : List String
  deriving DecidableEq, Repr

/-- How the body of a declaration ends. -/
inductive Mode where
  | indentation
  | braces
  deriving DecidableEq, Repr

/-- What is needed to cut the texts of one language. -/
structure Splitter where
  anchors : List String
  header : Grammar
  comments : CommentMarkers
  mode : Mode
  padding : Token.Padding
  deriving Repr

/-! ## Regions by indentation -/

/-- The columns that a blank at the start of a line is worth. -/
def blankWidth (c : Char) : Nat :=
  if c = '\t' then 4 else 1

/-- The width of the blanks at the start of a line. -/
def indentation (line : List Char) : Nat :=
  (line.takeWhile Text.isBlank).foldr (fun c width => blankWidth c + width) 0

/-- The line belongs to a body whose header has the given indentation. -/
def continuesBody (width : Nat) (line : List Char) : Bool :=
  Text.allBlank line || decide (width < indentation line)

def joinLines (lines : List (List Char)) : String :=
  String.ofList (['\n'].intercalate lines)

namespace Splitter

def isAnchor (splitter : Splitter) (token : String) : Bool :=
  splitter.anchors.contains token

/-- The first token of the line opens a declaration. -/
def startsAtLine (splitter : Splitter) (line : List Char) : Bool :=
  match Text.firstWord line with
  | none => false
  | some word =>
      match Token.ofPadded (splitter.padding.pad word) with
      | [] => false
      | token :: _ => splitter.isAnchor token

/-- One candidate for each line that opens a declaration. Its body runs to the next
line that has text and is indented no deeper. -/
def indentedFrom (splitter : Splitter) (index : Nat) : List (List Char) → List Candidate
  | [] => []
  | line :: rest =>
      if splitter.startsAtLine line then
        let body := rest.takeWhile (continuesBody (indentation line))
        ⟨index, index + 1 + body.length,
          Token.ofText splitter.padding (joinLines (line :: body))⟩
          :: splitter.indentedFrom (index + 1) rest
      else splitter.indentedFrom (index + 1) rest

end Splitter

/-! ## Regions by braces -/

def openBrace : String := "\x7b"

def closeBrace : String := "\x7d"

/-- The number of tokens up to the brace that brings the depth back to zero; all of
them if there is no such brace. There is no answer when a brace closes at depth
zero. -/
def blockLength : Nat → List String → Option Nat
  | _, [] => some 0
  | depth, token :: rest =>
      if token = openBrace then (blockLength (depth + 1) rest).map (· + 1)
      else if token = closeBrace then
        match depth with
        | 0 => none
        | 1 => some 1
        | outer + 2 => (blockLength (outer + 1) rest).map (· + 1)
      else (blockLength depth rest).map (· + 1)

/-- The number of tokens before the first opening brace. -/
def beforeBrace : List String → Option Nat
  | [] => none
  | token :: rest =>
      if token = openBrace then some 0 else (beforeBrace rest).map (· + 1)

/-- The number of tokens of a region: up to the first opening brace, and from there
to the brace that closes it. -/
def regionLength (tokens : List String) : Option Nat :=
  match beforeBrace tokens with
  | none => none
  | some lead => (blockLength 0 (tokens.drop lead)).map (lead + ·)

namespace Splitter

/-- One candidate for each anchor with an opening brace somewhere after it. -/
def bracedFrom (splitter : Splitter) (index : Nat) : List String → List Candidate
  | [] => []
  | token :: rest =>
      if splitter.isAnchor token then
        match regionLength (token :: rest) with
        | some count =>
            ⟨index, index + count, (token :: rest).take count⟩
              :: splitter.bracedFrom (index + 1) rest
        | none => splitter.bracedFrom (index + 1) rest
      else splitter.bracedFrom (index + 1) rest

/-! ## Naming -/

/-- The name in the header that the tokens start with. -/
def headerName (splitter : Splitter) : List String → Option String
  | [] => none
  | anchor :: following =>
      match splitter.header.parseWindow ⟨0, anchor, following⟩ with
      | .ok found => found.first? Grammar.nameCapture
      | .error _ => none

/-- Names the candidates in order. Every position before the given one lies inside a
named candidate or before the first one that is left. -/
def collect (splitter : Splitter) (covered : Nat) : List Candidate → Split
  | [] => ⟨[], []⟩
  | candidate :: others =>
      match splitter.headerName candidate.tokens with
      | some name =>
          let later := splitter.collect (max covered candidate.stop) others
          ⟨⟨name, candidate.tokens⟩ :: later.bodies, later.rejected⟩
      | none =>
          let later := splitter.collect covered others
          if candidate.start < covered then later
          else ⟨later.bodies, candidate.tokens :: later.rejected⟩

/-- The candidates of a text, in the order of their anchors. -/
def candidates (splitter : Splitter) (text : String) : List Candidate :=
  let lines := splitter.comments.bareLines text.toList
  match splitter.mode with
  | .indentation => splitter.indentedFrom 0 lines
  | .braces => splitter.bracedFrom 0 (Token.ofText splitter.padding (joinLines lines))

/-- The named bodies of a text, and the candidates without a name. -/
def split (splitter : Splitter) (text : String) : Split :=
  splitter.collect 0 (splitter.candidates text)

end Splitter

/-- A named body is one of the candidates. -/
theorem Splitter.collect_bodies_mem (splitter : Splitter) (covered : Nat)
    (candidates : List Candidate) :
    ∀ body ∈ (splitter.collect covered candidates).bodies,
      ∃ candidate ∈ candidates, candidate.tokens = body.tokens := by
  induction candidates generalizing covered with
  | nil => simp [collect]
  | cons candidate others inductionHypothesis =>
      intro body member
      unfold collect at member
      split at member
      · rcases List.mem_cons.1 member with same | later
        · exact ⟨candidate, List.mem_cons_self, by rw [same]⟩
        · obtain ⟨found, inside, tokens⟩ := inductionHypothesis _ body later
          exact ⟨found, List.mem_cons_of_mem _ inside, tokens⟩
      · have later : body ∈ (splitter.collect covered others).bodies := by
          dsimp only at member
          split at member <;> exact member
        obtain ⟨found, inside, tokens⟩ := inductionHypothesis _ body later
        exact ⟨found, List.mem_cons_of_mem _ inside, tokens⟩

end GodotGraph.Scope
