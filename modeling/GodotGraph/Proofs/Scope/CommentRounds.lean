import GodotGraph.Proofs.Pattern.Safety
import GodotGraph.Scope.Comment

/-!
Contract: taking block comments out of a text, round by round.

Owns:
- the removal of comments by its outcomes for the first comment of a text;
- the same as rounds on byte offsets, each on what the round before has left;
- that the rounds come to an end without a fault.

A round looks for the two markers and cuts the text by slices, so it has no result if it asks for
a slice outside the text or inside a character. The rounds have no bound, so there is no result
either if they go on forever.

Does not own: what the removal keeps.
-/

set_option autoImplicit false

namespace GodotGraph.Scope

open Pattern (byteLength sliceFrom? slice?)

variable {start stop : List Char}

/-! ## The first comment -/

/-- What is done with the first comment of a text. -/
theorem cutBlocks_eq (filled : start ≠ []) (text : List Char) :
    cutBlocks start stop text =
      match splitAtMarker start text with
      | none => text
      | some (before, inside) =>
          match splitAtMarker stop inside with
          | none => before
          | some (body, after) =>
              before ++ (start ++ body ++ stop).filter (· = '\n') ++ cutBlocks start stop after := by
  have notEmpty : ¬ start.isEmpty = true := by simpa using filled
  rw [cutBlocks, if_neg notEmpty]
  split
  · next found => rw [found]
  · next before inside found =>
      rw [found]
      dsimp only
      split
      · next unclosed => rw [unclosed]
      · next body after closed => rw [closed]

/-! ## Rounds -/

/-- The offset of the first place where the marker stands. -/
def offsetOf? (marker : List Char) : List Char → Option Nat
  | [] => if marker.isEmpty then some 0 else none
  | c :: rest =>
      if marker.isPrefixOf (c :: rest) then some 0
      else (offsetOf? marker rest).map (c.utf8Size + ·)

/-- Takes the first comment out of what is left of a text, and adds what stays of it to what was
kept before. Nothing is left behind a comment that is not closed. -/
def round (start stop : List Char) :
    List Char × List Char → Option (List Char ⊕ (List Char × List Char))
  | (kept, left) =>
      match offsetOf? start left with
      | none => return .inl (kept ++ left)
      | some opening => do
          let before ← slice? left 0 opening
          let inside ← sliceFrom? left (opening + byteLength start)
          match offsetOf? stop inside with
          | none => return .inr (kept ++ before, [])
          | some closing =>
              let behind := opening + byteLength start + closing + byteLength stop
              let comment ← slice? left opening behind
              let after ← sliceFrom? left behind
              return .inr (kept ++ before ++ comment.filter (· = '\n'), after)

theorem offsetOf?_eq_map_splitAtMarker (marker text : List Char) :
    offsetOf? marker text = (splitAtMarker marker text).map fun parts => byteLength parts.1 := by
  induction text with
  | nil =>
      rw [offsetOf?, splitAtMarker]
      split
      · rfl
      · rfl
  | cons c rest inductionHypothesis =>
      rw [offsetOf?, splitAtMarker]
      split
      · rfl
      · rw [inductionHypothesis, Option.map_map, Option.map_map]
        rfl

section

variable {left before inside : List Char} (kept : List Char)

theorem round_of_none (none : splitAtMarker start left = none) :
    round start stop (kept, left) = some (.inl (kept ++ left)) := by
  rw [round, offsetOf?_eq_map_splitAtMarker, none]
  rfl

theorem slice?_before (found : splitAtMarker start left = some (before, inside)) :
    slice? left 0 (byteLength before) = some before := by
  have sliced := Pattern.slice?_append [] before (start ++ inside)
  rwa [Pattern.byteLength_nil, Nat.zero_add, List.nil_append, ← List.append_assoc,
    ← eq_of_splitAtMarker found] at sliced

theorem sliceFrom?_inside (found : splitAtMarker start left = some (before, inside)) :
    sliceFrom? left (byteLength before + byteLength start) = some inside := by
  rw [eq_of_splitAtMarker found, ← Pattern.byteLength_append]
  exact Pattern.sliceFrom?_append _ _

theorem round_of_unclosed (found : splitAtMarker start left = some (before, inside))
    (unclosed : splitAtMarker stop inside = none) :
    round start stop (kept, left) = some (.inr (kept ++ before, [])) := by
  simp only [round, offsetOf?_eq_map_splitAtMarker, found, unclosed, slice?_before found,
    sliceFrom?_inside found, Option.map_some, Option.map_none, Option.bind_eq_bind,
    Option.bind_some]
  rfl

theorem round_of_closed (found : splitAtMarker start left = some (before, inside))
    {body after : List Char} (closed : splitAtMarker stop inside = some (body, after)) :
    round start stop (kept, left) =
      some (.inr (kept ++ before ++ (start ++ body ++ stop).filter (· = '\n'), after)) := by
  have shape : left = before ++ ((start ++ body ++ stop) ++ after) := by
    rw [eq_of_splitAtMarker found, eq_of_splitAtMarker closed]
    simp
  have behind : byteLength before + byteLength start + byteLength body + byteLength stop =
      byteLength before + byteLength (start ++ body ++ stop) := by
    simp only [Pattern.byteLength_append]
    omega
  have comment : slice? left (byteLength before)
      (byteLength before + byteLength (start ++ body ++ stop)) = some (start ++ body ++ stop) := by
    rw [shape]
    exact Pattern.slice?_append _ _ _
  have rest : sliceFrom? left (byteLength before + byteLength (start ++ body ++ stop)) =
      some after := by
    rw [shape, ← Pattern.byteLength_append, ← List.append_assoc]
    exact Pattern.sliceFrom?_append _ _
  simp only [round, offsetOf?_eq_map_splitAtMarker, found, closed, slice?_before found,
    sliceFrom?_inside found, behind, comment, rest, Option.map_some, Option.bind_eq_bind,
    Option.bind_some]
  rfl

end

theorem splitAtMarker_nil (filled : start ≠ []) : splitAtMarker start [] = none := by
  rw [splitAtMarker, if_neg (by simpa using filled)]

/-- The rounds come to an end, and what they keep is the text without its comments. -/
theorem loop_round (filled : start ≠ []) (kept left : List Char) :
    Pattern.Run.loop (round start stop) (kept, left) =
      some (kept ++ cutBlocks start stop left) := by
  rw [cutBlocks_eq filled]
  cases found : splitAtMarker start left with
  | none => exact Pattern.Run.loop_of_result (round_of_none kept found)
  | some parts =>
      obtain ⟨before, inside⟩ := parts
      dsimp only
      cases closed : splitAtMarker stop inside with
      | none =>
          rw [Pattern.Run.loop_of_state (round_of_unclosed kept found closed),
            Pattern.Run.loop_of_result (round_of_none _ (splitAtMarker_nil filled)),
            List.append_nil]
      | some others =>
          obtain ⟨body, after⟩ := others
          have less : after.length < left.length := by
            have marker := List.length_pos_iff.2 filled
            rw [eq_of_splitAtMarker found, eq_of_splitAtMarker closed]
            simp only [List.length_append]
            omega
          rw [Pattern.Run.loop_of_state (round_of_closed kept found closed),
            loop_round filled _ after]
          simp only [List.append_assoc]
termination_by left.length

end GodotGraph.Scope
