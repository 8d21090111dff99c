import GodotGraph.Proofs.Pattern.LeadingBlanks
import GodotGraph.Proofs.Pattern.Safety

/-!
Contract: skipping stops exactly at its target.

Owns:
- skipping that fails, which is the target matching nowhere ahead;
- the place where skipping stops, at which the target matches;
- the places passed, at which it does not match, but for the blanks just before that place.

The search stops at the first place at which the target matches, and the blanks there are skipped
as well. The target still matches behind them, whatever pattern it is.
-/

set_option autoImplicit false

namespace GodotGraph.Pattern

open Text (trimStart)

/-! ## Readers -/

section

variable {target : Pattern} {text : List Char}

theorem skipTo_reader_error_iff :
    (∃ stuck, (skipTo target).reader text = .error stuck) ↔
      ∀ rest, rest <:+ text → ∃ stuck, target.reader rest = .error stuck := by
  rw [← seek_eq_none_iff]
  simp only [reader, Reader.skipTo]
  cases Reader.seek target.reader text <;> simp

theorem skipTo_reader_ok {stop : Reading} (read : (skipTo target).reader text = .ok stop) :
    stop.rest <:+ text ∧ (∃ found, target.reader stop.rest = .ok found) ∧
      ∀ place found, place <:+ text → target.reader place = .ok found →
        stop.rest.length < place.length → trimStart place = stop.rest := by
  simp only [reader, Reader.skipTo] at read
  cases reached : Reader.seek target.reader text with
  | none =>
      rw [reached] at read
      cases read
  | some first =>
      rw [reached] at read
      cases read
      obtain ⟨ends, ⟨found, readFirst⟩, nothingBefore⟩ := seek_eq_some reached
      have solid := Text.trimStart_suffix first
      refine ⟨solid.trans ends, ?_, ?_⟩
      · have trimmed := Text.trimStart_trimStart first
        rcases ignoresLeading_reader target first (trimStart first) trimmed.symm with
          ⟨_, last, _, readLast, _⟩ | ⟨stuck, _, fails, _⟩
        · exact ⟨last, readLast⟩
        · rw [readFirst] at fails
          cases fails
      · intro place found placeEnds readPlace earlier
        -- The place is between the first match and the end of the blanks there.
        have behind : place <:+ first :=
          List.suffix_of_suffix_length_le placeEnds ends
            (nothingBefore place found placeEnds readPlace)
        have before : trimStart first <:+ place :=
          List.suffix_of_suffix_length_le (solid.trans ends) placeEnds (Nat.le_of_lt earlier)
        have forth := Text.trimStart_suffix_of_suffix behind
        have back := Text.trimStart_suffix_of_suffix before
        rw [Text.trimStart_trimStart] at back
        exact forth.eq_of_length_le back.length_le

end

/-! ## Places of a text -/

section

variable {target : Pattern} {text : List Char} {cursor place : Cursor}

/-- A place that is not before the cursor is one that the cursor can go to. -/
theorem Stands.eq_goto (stands : Stands text cursor) (there : Stands text place)
    (after : cursor.offset ≤ place.offset) :
    place.rest <:+ cursor.rest ∧ place = cursor.goto place.rest := by
  obtain ⟨read, shape, offset⟩ := sliceFrom?_eq_some_iff.1 stands
  obtain ⟨placeRead, placeShape, placeOffset⟩ := sliceFrom?_eq_some_iff.1 there
  have shorter : place.rest.length ≤ cursor.rest.length := by
    rcases Nat.lt_or_eq_of_le after with before | same
    · exact there.length_le_of_offset_lt stands before
    · have slice : sliceFrom? text place.offset = some cursor.rest := same ▸ stands
      have sameRest : some place.rest = some cursor.rest := there.symm.trans slice
      rw [Option.some.inj sameRest]
  have whole : byteLength read + byteLength cursor.rest =
      byteLength placeRead + byteLength place.rest := by
    rw [← byteLength_append, ← byteLength_append, ← shape, ← placeShape]
  have moved : place.offset = cursor.offset + (byteLength cursor.rest - byteLength place.rest) := by
    omega
  have ends := List.suffix_of_suffix_length_le ⟨placeRead, placeShape.symm⟩ ⟨read, shape.symm⟩ shorter
  exact ⟨ends, congrArg (Cursor.mk · place.rest) moved⟩

theorem matcher_fails_iff {pattern : Pattern} {trail : Trail} :
    (∃ mismatch left, pattern.matcher cursor trail = (.error mismatch, left)) ↔
      ∃ stuck, pattern.reader cursor.rest = .error stuck := by
  cases read : pattern.reader cursor.rest with
  | ok found =>
      rw [((simulates_reader pattern).ok read trail).2]
      simp
  | error stuck =>
      obtain ⟨_, left, run⟩ := (simulates_reader pattern).error read trail
      rw [run]
      simp

theorem matchesAt_iff : MatchesAt target place ↔ ∃ found, target.reader place.rest = .ok found := by
  simp only [MatchesAt, matcher_eq_ok_iff]
  simp

theorem not_matchesAt_iff :
    ¬ MatchesAt target place ↔ ∃ stuck, target.reader place.rest = .error stuck := by
  rw [matchesAt_iff]
  cases target.reader place.rest <;> simp

/-- Skipping fails from a boundary if the target matches at no boundary from there to the end of
the text. Otherwise it stops at a boundary at which the target matches. The only boundaries on the
way there at which the target matches too are those in the blanks just before the stop. -/
theorem skipTo_stops_at_target (target : Pattern) {text : String} {cursor : Cursor}
    (stands : Stands text.toList cursor) (trail : Trail) :
    ((∃ mismatch left, (skipTo target).matcher cursor trail = (.error mismatch, left)) ↔
      ∀ place, Stands text.toList place → cursor.offset ≤ place.offset → ¬ MatchesAt target place) ∧
    ∀ stop longer, (skipTo target).matcher cursor trail = (.ok stop, longer) →
      Stands text.toList stop ∧ cursor.offset ≤ stop.offset ∧ MatchesAt target stop ∧
        ∀ place, Stands text.toList place → cursor.offset ≤ place.offset →
          place.offset < stop.offset → MatchesAt target place →
            ∀ c ∈ place.textTo stop, Text.isBlank c = true := by
  constructor
  · rw [matcher_fails_iff, skipTo_reader_error_iff]
    constructor
    · intro nowhere place there after
      rw [not_matchesAt_iff]
      exact nowhere place.rest (stands.eq_goto there after).1
    · intro nowhere rest ends
      have fails := nowhere (cursor.goto rest) (stands.goto ends) (Nat.le_add_right _ _)
      rwa [not_matchesAt_iff] at fails
  · intro stop longer run
    obtain ⟨found, read, rfl, -⟩ := matcher_eq_ok_iff.1 run
    obtain ⟨ends, succeeds, passed⟩ := skipTo_reader_ok read
    refine ⟨stands.goto ends, Nat.le_add_right _ _, matchesAt_iff.2 succeeds, ?_⟩
    intro place there after before matched
    obtain ⟨placeEnds, moved⟩ := stands.eq_goto there after
    obtain ⟨last, readPlace⟩ := matchesAt_iff.1 matched
    have earlier : found.rest.length < place.rest.length := by
      rw [moved] at before
      exact (Cursor.offset_goto_lt_iff placeEnds ends).1 before
    obtain ⟨blanks, blank, shape⟩ := Text.trimStart_append place.rest
    rw [passed place.rest last placeEnds readPlace earlier] at shape
    have between : place.textTo (cursor.goto found.rest) = blanks := by
      simp [Cursor.textTo, shape]
    rw [between]
    exact blank

/-- A colon that does not start an assignment, and a semicolon somewhere after it. -/
def colonOfField : Pattern :=
  .seq [
    .notAhead (.literal ":="),
    .literal ":",
    .optional (.keyword "var"),
    .ahead (.skipTo (.literal ";"))]

/-- The first colon starts an assignment. The search stops at the blanks before the second one, and
skipping ends behind these, of which one has three bytes. Without the semicolon it fails. -/
theorem skipTo_stops_at_target_colonOfField :
    (Stands "é:= \u3000: var ü;".toList ⟨2, ":= \u3000: var ü;".toList⟩ ∧
      (skipTo colonOfField).matcher ⟨2, ":= \u3000: var ü;".toList⟩ [] =
        (.ok ⟨8, ": var ü;".toList⟩, []) ∧
      MatchesAt colonOfField ⟨8, ": var ü;".toList⟩ ∧
      ∀ place, Stands "é:= \u3000: var ü;".toList place → 2 ≤ place.offset → place.offset < 8 →
        MatchesAt colonOfField place →
          ∀ c ∈ place.textTo ⟨8, ": var ü;".toList⟩, Text.isBlank c = true) ∧
    (Stands "é:= : var ü".toList ⟨2, ":= : var ü".toList⟩ ∧
      ∀ place, Stands "é:= : var ü".toList place → 2 ≤ place.offset →
        ¬ MatchesAt colonOfField place) := by
  have found : Stands "é:= \u3000: var ü;".toList ⟨2, ":= \u3000: var ü;".toList⟩ := by
    unfold Stands
    decide +kernel
  have missed : Stands "é:= : var ü".toList ⟨2, ":= : var ü".toList⟩ := by
    unfold Stands
    decide +kernel
  have stops : (skipTo colonOfField).matcher ⟨2, ":= \u3000: var ü;".toList⟩ [] =
      (.ok ⟨8, ": var ü;".toList⟩, []) := by
    decide +kernel
  have fails : (skipTo colonOfField).matcher ⟨2, ":= : var ü".toList⟩ [] =
      (.error ⟨2, "anything but ':=' somewhere ahead"⟩, []) := by
    decide +kernel
  obtain ⟨_, _, matched, passed⟩ := (skipTo_stops_at_target colonOfField found []).2 _ _ stops
  exact ⟨⟨found, stops, matched, passed⟩, missed,
    (skipTo_stops_at_target colonOfField missed []).1.1 ⟨_, _, fails⟩⟩

end

end GodotGraph.Pattern
