import GodotGraph.Text.Blank

/-!
Contract: removing comments from source text.

Owns:
- the markers of line comments and block comments;
- cutting a line at its comment, and taking block comments out of a text.

Block comments leave their line ends behind, so that every line that remains
keeps its number. A comment that is never closed takes the rest of the text with
it, line ends included.
-/

set_option autoImplicit false

namespace GodotGraph.Scope

/-- How comments are written; an empty marker means there are none of the kind. -/
structure CommentMarkers where
  line : String
  blockStart : String
  blockStop : String
  deriving DecidableEq, Repr

namespace CommentMarkers

/-- Comments that run from a marker to the end of the line. -/
def lineOnly (line : String) : CommentMarkers := ⟨line, "", ""⟩

end CommentMarkers

/-- The line up to the marker, if it stands outside double quotes. -/
def cutOutside (marker : List Char) (quoted : Bool) : List Char → List Char
  | [] => []
  | c :: rest =>
      if c = '"' then c :: cutOutside marker (!quoted) rest
      else if !quoted && marker.isPrefixOf (c :: rest) then []
      else c :: cutOutside marker quoted rest

def cutLine (marker : List Char) (line : List Char) : List Char :=
  if marker.isEmpty then line else cutOutside marker false line

/-- The text before the first occurrence of a marker and the text after it. -/
def splitAtMarker (marker : List Char) : List Char → Option (List Char × List Char)
  | [] => if marker.isEmpty then some ([], []) else none
  | c :: rest =>
      if marker.isPrefixOf (c :: rest) then some ([], (c :: rest).drop marker.length)
      else (splitAtMarker marker rest).map fun parts => (c :: parts.1, parts.2)

/-- A text is its part before the marker, the marker, and its part after it. -/
theorem eq_of_splitAtMarker {marker text before after : List Char}
    (found : splitAtMarker marker text = some (before, after)) :
    text = before ++ marker ++ after := by
  induction text generalizing before with
  | nil =>
      unfold splitAtMarker at found
      split at found <;> simp_all
  | cons c rest inductionHypothesis =>
      unfold splitAtMarker at found
      split at found
      · next starts =>
          obtain ⟨tail, shape⟩ := List.isPrefixOf_iff_prefix.1 starts
          simp only [Option.some.injEq, Prod.mk.injEq] at found
          rw [← found.1, ← found.2, ← shape]
          simp
      · obtain ⟨parts, inner, same⟩ := Option.map_eq_some_iff.1 found
        have shape := @inductionHypothesis parts.1 (by rw [inner, ← (Prod.mk.inj same).2])
        rw [← (Prod.mk.inj same).1, shape]
        simp

/-- The text without block comments. Each comment becomes the line ends inside it. -/
def cutBlocks (start stop : List Char) (text : List Char) : List Char :=
  if start.isEmpty then text
  else
    match _found : splitAtMarker start text with
    | none => text
    | some (before, inside) =>
        match _closed : splitAtMarker stop inside with
        | none => before
        | some (body, after) =>
            before ++ (start ++ body ++ stop).filter (· = '\n') ++ cutBlocks start stop after
termination_by text.length
decreasing_by
  have whole := congrArg List.length (eq_of_splitAtMarker _found)
  have rest := congrArg List.length (eq_of_splitAtMarker _closed)
  have filled : 0 < start.length := List.length_pos_iff.2 (by simp_all)
  simp only [List.length_append] at whole rest
  omega

def CommentMarkers.cutBlocks (markers : CommentMarkers) (text : List Char) : List Char :=
  if markers.blockStart.isEmpty || markers.blockStop.isEmpty then text
  else Scope.cutBlocks markers.blockStart.toList markers.blockStop.toList text

/-- The lines of a text without block comments, each cut at its line comment. -/
def CommentMarkers.bareLines (markers : CommentMarkers) (text : List Char) : List (List Char) :=
  (Text.lines (markers.cutBlocks text)).map (cutLine markers.line.toList)

end GodotGraph.Scope
