import GodotGraph.Proofs.Scope.CommentRounds
import Mathlib.Data.List.Infix

/-!
Contract: what stays of a text without its block comments.

Owns:
- the first place where a marker stands in a text;
- the zones of a text that is read from the left, in and outside of comments;
- the characters of a text with the numbers of their lines;
- that the removal of comments keeps all text outside of them and all line numbers.

Does not own: the search for the markers.

The zones say of each character where it lies, and they do not speak of what is kept. All results
follow their rules: a character outside, a comment that is closed, and one that is not.
-/

set_option autoImplicit false

namespace GodotGraph.Scope

variable {start stop : List Char}

/-! ## First places -/

/-- The marker stands between the two parts of the text, and nowhere before. -/
structure FirstAt (marker text before after : List Char) : Prop where
  shape : text = before ++ (marker ++ after)
  first : ∀ front rest, text = front ++ (marker ++ rest) → before.length ≤ front.length

section

variable {marker text before after : List Char}

theorem FirstAt.unique (one : FirstAt marker text before after) {otherBefore otherAfter : List Char}
    (other : FirstAt marker text otherBefore otherAfter) :
    before = otherBefore ∧ after = otherAfter := by
  have notLater := one.first _ _ other.shape
  have notEarlier := other.first _ _ one.shape
  have same : before ++ (marker ++ after) = otherBefore ++ (marker ++ otherAfter) :=
    one.shape.symm.trans other.shape
  obtain ⟨sameBefore, rest⟩ := List.append_inj same (Nat.le_antisymm notLater notEarlier)
  exact ⟨sameBefore, List.append_cancel_left rest⟩

theorem FirstAt.infix (first : FirstAt marker text before after) : marker <:+: text :=
  ⟨before, after, by rw [first.shape, List.append_assoc]⟩

theorem splitAtMarker_eq_none_iff : splitAtMarker marker text = none ↔ ¬ marker <:+: text := by
  induction text with
  | nil => simp [splitAtMarker]
  | cons c rest inductionHypothesis =>
      rw [splitAtMarker, List.infix_cons_iff, ← List.isPrefixOf_iff_prefix]
      split
      · next starts => simp [starts]
      · next other => simp [other, inductionHypothesis]

theorem firstAt_of_splitAtMarker (found : splitAtMarker marker text = some (before, after)) :
    FirstAt marker text before after := by
  refine ⟨by rw [eq_of_splitAtMarker found, List.append_assoc], ?_⟩
  induction text generalizing before with
  | nil =>
      have shape := congrArg List.length (eq_of_splitAtMarker found)
      simp only [List.length_nil, List.length_append] at shape
      omega
  | cons c rest inductionHypothesis =>
      intro front behind shape
      rw [splitAtMarker] at found
      split at found
      · obtain ⟨rfl, -⟩ : [] = before ∧ _ = after := by simpa using found
        exact Nat.zero_le _
      · next other =>
          obtain ⟨parts, later, same⟩ := Option.map_eq_some_iff.1 found
          obtain ⟨rfl, rfl⟩ : c :: parts.1 = before ∧ parts.2 = after := by simpa using same
          cases front with
          | nil =>
              refine absurd ?_ other
              rw [shape, List.isPrefixOf_iff_prefix]
              exact List.prefix_append _ _
          | cons head tail =>
              exact Nat.succ_le_succ (inductionHypothesis later tail behind (List.cons.inj shape).2)

theorem splitAtMarker_eq_some_iff :
    splitAtMarker marker text = some (before, after) ↔ FirstAt marker text before after := by
  refine ⟨firstAt_of_splitAtMarker, fun first => ?_⟩
  cases found : splitAtMarker marker text with
  | none =>
      exact absurd first.infix (splitAtMarker_eq_none_iff.1 found)
  | some parts =>
      obtain ⟨rfl, rfl⟩ := (firstAt_of_splitAtMarker found).unique first
      rfl

/-- A closed comment and what stands behind it. -/
theorem FirstAt.comment_append {stop inside body : List Char}
    (ends : FirstAt stop inside body after) (start : List Char) :
    start ++ inside = start ++ body ++ stop ++ after := by
  rw [ends.shape]
  simp only [List.append_assoc]

end

/-! ## Zones -/

/-- Where a character lies: outside of all comments, in a comment that is closed, or in one that
runs to the end of the text. -/
inductive Zone where
  | outside
  | closed
  | unclosed
  deriving DecidableEq, Repr

/-- A text with the zones of its characters, read from the left. A comment starts where the start
marker stands outside of a comment, and it ends with the first stop marker behind that, or with
the text. -/
inductive Zoned (start stop : List Char) : List Char → List Zone → Prop where
  | done : Zoned start stop [] []
  | outside {c : Char} {rest : List Char} {zones : List Zone} (noStart : ¬ start <+: c :: rest)
      (later : Zoned start stop rest zones) : Zoned start stop (c :: rest) (.outside :: zones)
  | closed {text inside body after : List Char} {zones : List Zone}
      (starts : text = start ++ inside) (ends : FirstAt stop inside body after)
      (later : Zoned start stop after zones) :
      Zoned start stop text (List.replicate (start ++ body ++ stop).length .closed ++ zones)
  | unclosed {text inside : List Char} (starts : text = start ++ inside)
      (endless : ¬ stop <:+: inside) : Zoned start stop text (List.replicate text.length .unclosed)

namespace Zoned

variable {text : List Char} {zones : List Zone}

theorem length_eq (zoned : Zoned start stop text zones) : zones.length = text.length := by
  induction zoned with
  | done => rfl
  | outside noStart later inductionHypothesis =>
      rw [List.length_cons, List.length_cons, inductionHypothesis]
  | closed starts ends later inductionHypothesis =>
      rw [starts, ends.comment_append, List.length_append, List.length_replicate,
        inductionHypothesis, ← List.length_append]
  | unclosed starts endless => exact List.length_replicate

/-- The zones of a text are the only ones that follow the rules. -/
theorem unique (filled : start ≠ []) (zoned : Zoned start stop text zones) {others : List Zone}
    (alsoZoned : Zoned start stop text others) : zones = others := by
  have noneLeft : ∀ {inside : List Char}, [] = start ++ inside → False := fun shape =>
    filled (List.append_eq_nil_iff.1 shape.symm).1
  induction zoned generalizing others with
  | done =>
      cases alsoZoned with
      | done => rfl
      | closed starts ends later => exact (noneLeft starts).elim
      | unclosed starts endless => exact (noneLeft starts).elim
  | outside noStart later inductionHypothesis =>
      cases alsoZoned with
      | outside alsoNoStart otherLater => rw [inductionHypothesis otherLater]
      | closed starts ends otherLater => exact absurd ⟨_, starts.symm⟩ noStart
      | unclosed starts endless => exact absurd ⟨_, starts.symm⟩ noStart
  | closed starts ends later inductionHypothesis =>
      cases alsoZoned with
      | done => exact (noneLeft starts).elim
      | outside noStart otherLater => exact absurd ⟨_, starts.symm⟩ noStart
      | closed otherStarts otherEnds otherLater =>
          obtain rfl := List.append_cancel_left (starts.symm.trans otherStarts)
          obtain ⟨rfl, rfl⟩ := ends.unique otherEnds
          rw [inductionHypothesis otherLater]
      | unclosed otherStarts endless =>
          obtain rfl := List.append_cancel_left (starts.symm.trans otherStarts)
          exact absurd ends.infix endless
  | unclosed starts endless =>
      cases alsoZoned with
      | done => exact (noneLeft starts).elim
      | outside noStart otherLater => exact absurd ⟨_, starts.symm⟩ noStart
      | closed otherStarts ends otherLater =>
          obtain rfl := List.append_cancel_left (starts.symm.trans otherStarts)
          exact absurd ends.infix endless
      | unclosed otherStarts alsoEndless => rfl

end Zoned

/-- Every text has zones. -/
theorem exists_zoned (filled : start ≠ []) (stop text : List Char) :
    ∃ zones, Zoned start stop text zones := by
  by_cases starts : start <+: text
  · obtain ⟨inside, rfl⟩ := starts
    cases found : splitAtMarker stop inside with
    | none => exact ⟨_, .unclosed rfl (splitAtMarker_eq_none_iff.1 found)⟩
    | some parts =>
        have ends := firstAt_of_splitAtMarker found
        have less : parts.2.length < (start ++ inside).length := by
          have marker := List.length_pos_iff.2 filled
          rw [ends.shape]
          simp only [List.length_append]
          omega
        obtain ⟨zones, later⟩ := exists_zoned filled stop parts.2
        exact ⟨_, .closed rfl ends later⟩
  · cases text with
    | nil => exact ⟨[], .done⟩
    | cons c rest =>
        obtain ⟨zones, later⟩ := exists_zoned filled stop rest
        exact ⟨_, .outside starts later⟩
termination_by text.length

/-! ## The removal by zones -/

theorem splitAtMarker_append (inside : List Char) :
    splitAtMarker start (start ++ inside) = some ([], inside) :=
  splitAtMarker_eq_some_iff.2 ⟨rfl, fun _ _ _ => Nat.zero_le _⟩

section

variable (filled : start ≠ [])

include filled

theorem cutBlocks_nil : cutBlocks start stop [] = [] := by
  rw [cutBlocks_eq filled, splitAtMarker_nil filled]

theorem cutBlocks_cons {c : Char} {rest : List Char} (noStart : ¬ start <+: c :: rest) :
    cutBlocks start stop (c :: rest) = c :: cutBlocks start stop rest := by
  have later : ¬ start.isPrefixOf (c :: rest) = true := by
    rwa [List.isPrefixOf_iff_prefix]
  rw [cutBlocks_eq filled, cutBlocks_eq filled rest, splitAtMarker, if_neg later]
  cases splitAtMarker start rest with
  | none => rfl
  | some parts =>
      rw [Option.map_some]
      dsimp only
      split
      · rfl
      · rfl

theorem cutBlocks_closed {inside body after : List Char} (ends : FirstAt stop inside body after) :
    cutBlocks start stop (start ++ inside) =
      (start ++ body ++ stop).filter (· = '\n') ++ cutBlocks start stop after := by
  rw [cutBlocks_eq filled, splitAtMarker_append]
  dsimp only
  rw [splitAtMarker_eq_some_iff.2 ends]
  rfl

theorem cutBlocks_unclosed {inside : List Char} (endless : ¬ stop <:+: inside) :
    cutBlocks start stop (start ++ inside) = [] := by
  rw [cutBlocks_eq filled, splitAtMarker_append]
  dsimp only
  rw [splitAtMarker_eq_none_iff.2 endless]

end

/-! ## Lines -/

/-- The characters of a text with the numbers of their lines, from a given number on. A line end
stands on the line that it ends. -/
def numbered (line : Nat) : List Char → List (Nat × Char)
  | [] => []
  | c :: rest => (line, c) :: numbered (if c = '\n' then line + 1 else line) rest

theorem numbered_append (line : Nat) (first rest : List Char) :
    numbered line (first ++ rest) =
      numbered line first ++ numbered (line + first.count '\n') rest := by
  induction first generalizing line with
  | nil => rfl
  | cons c others inductionHypothesis =>
      rw [List.cons_append, numbered, numbered, inductionHypothesis, List.cons_append]
      by_cases ends : c = '\n'
      · subst ends
        rw [if_pos rfl, List.count_cons_self, Nat.add_right_comm, Nat.add_assoc]
      · rw [if_neg ends, List.count_cons_of_ne ends]

theorem map_snd_numbered (line : Nat) (text : List Char) :
    (numbered line text).map Prod.snd = text := by
  induction text generalizing line with
  | nil => rfl
  | cons c rest inductionHypothesis => rw [numbered, List.map_cons, inductionHypothesis]

theorem length_numbered (line : Nat) (text : List Char) :
    (numbered line text).length = text.length := by
  rw [← List.length_map Prod.snd, map_snd_numbered]

/-- The line ends alone have the lines that they have in their text. -/
theorem numbered_filter_newline (line : Nat) (text : List Char) :
    numbered line (text.filter (· = '\n')) =
      (numbered line text).filter fun letter => decide (letter.2 = '\n') := by
  induction text generalizing line with
  | nil => rfl
  | cons c rest inductionHypothesis =>
      by_cases ends : c = '\n'
      · subst ends
        rw [List.filter_cons_of_pos (by simp), numbered, numbered, if_pos rfl,
          inductionHypothesis, List.filter_cons_of_pos (by simp)]
      · rw [List.filter_cons_of_neg (by simpa using ends), numbered, if_neg ends,
          inductionHypothesis, List.filter_cons_of_neg (by simpa using ends)]

/-! ## What is kept -/

/-- What is kept in a zone: all outside of comments, the line ends of a closed comment, and
nothing of a comment that is not closed. -/
def Zone.keeps : Zone → Char → Bool
  | .outside, _ => true
  | .closed, c => c = '\n'
  | .unclosed, _ => false

/-- The characters that are kept, each in its own zone. -/
def kept (zones : List Zone) (letters : List (Nat × Char)) : List (Nat × Char) :=
  ((letters.zip zones).filter fun standing => standing.2.keeps standing.1.2).map Prod.fst

theorem kept_sublist {zones : List Zone} {letters : List (Nat × Char)}
    (size : zones.length = letters.length) : (kept zones letters).Sublist letters := by
  have part := (List.filter_sublist (l := letters.zip zones)
    (p := fun standing => standing.2.keeps standing.1.2)).map Prod.fst
  rwa [List.map_fst_zip (Nat.le_of_eq size.symm)] at part

theorem kept_append {zones : List Zone} {letters : List (Nat × Char)}
    (size : zones.length = letters.length) (others : List Zone) (rest : List (Nat × Char)) :
    kept (zones ++ others) (letters ++ rest) = kept zones letters ++ kept others rest := by
  rw [kept, List.zip_append size.symm, List.filter_append, List.map_append]
  rfl

theorem kept_replicate (zone : Zone) {size : Nat} {letters : List (Nat × Char)}
    (same : letters.length = size) :
    kept (List.replicate size zone) letters = letters.filter fun letter => zone.keeps letter.2 := by
  subst same
  induction letters with
  | nil => rfl
  | cons letter others inductionHypothesis =>
      rw [kept] at inductionHypothesis ⊢
      rw [List.length_cons, List.replicate_succ, List.zip_cons_cons, List.filter_cons,
        List.filter_cons, ← inductionHypothesis]
      split
      · rfl
      · rfl

theorem numbered_cutBlocks (filled : start ≠ []) {text : List Char} {zones : List Zone}
    (zoned : Zoned start stop text zones) (line : Nat) :
    numbered line (cutBlocks start stop text) = kept zones (numbered line text) := by
  induction zoned generalizing line with
  | done => rw [cutBlocks_nil filled]; rfl
  | outside noStart later inductionHypothesis =>
      rw [cutBlocks_cons filled noStart, numbered, numbered, inductionHypothesis]
      rfl
  | @closed text inside body after zones starts ends later inductionHypothesis =>
      subst starts
      have size := length_numbered line (start ++ body ++ stop)
      have lineEnds : ((start ++ body ++ stop).filter (· = '\n')).count '\n' =
          (start ++ body ++ stop).count '\n' := List.count_filter rfl
      -- The line ends that stay of the comment count as many lines as all of it.
      rw [cutBlocks_closed filled ends, ends.comment_append, numbered_append, numbered_append,
        kept_append (by rw [List.length_replicate, size]), kept_replicate _ size,
        numbered_filter_newline, lineEnds, inductionHypothesis]
      rfl
  | unclosed starts endless =>
      subst starts
      rw [cutBlocks_unclosed filled endless, kept_replicate _ (length_numbered line _)]
      exact (List.filter_false _).symm

theorem count_newline_cutBlocks (filled : start ≠ []) {text : List Char} {zones : List Zone}
    (zoned : Zoned start stop text zones) (closed : .unclosed ∉ zones) :
    (cutBlocks start stop text).count '\n' = text.count '\n' := by
  induction zoned with
  | done => rw [cutBlocks_nil filled]
  | outside noStart later inductionHypothesis =>
      have closedLater := inductionHypothesis fun member => closed (List.mem_cons_of_mem _ member)
      rw [cutBlocks_cons filled noStart, List.count_cons, List.count_cons, closedLater]
  | closed starts ends later inductionHypothesis =>
      have closedLater := inductionHypothesis fun member => closed (List.mem_append_right _ member)
      rw [starts, cutBlocks_closed filled ends, ends.comment_append, List.count_append,
        List.count_append, closedLater, List.count_filter rfl]
  | unclosed starts endless =>
      have marker : 0 < start.length := List.length_pos_iff.2 filled
      refine absurd (List.mem_replicate.2 ⟨?_, rfl⟩) closed
      rw [starts, List.length_append]
      omega

/-- What is left of a source has the characters that its zones keep, all on the lines where they
were, and as many lines as before if every comment is closed. -/
structure KeepsLines (source left : List Char) (zones : List Zone) : Prop where
  deletes : left.Sublist source
  lines : numbered 0 left = kept zones (numbered 0 source)
  lineEnds : .unclosed ∉ zones → left.count '\n' = source.count '\n'

theorem keepsLines_cutBlocks (filled : start ≠ []) {text : List Char} {zones : List Zone}
    (zoned : Zoned start stop text zones) :
    KeepsLines text (cutBlocks start stop text) zones := by
  have lines := numbered_cutBlocks filled zoned 0
  have size : zones.length = (numbered 0 text).length := by
    rw [zoned.length_eq, length_numbered]
  refine ⟨?_, lines, count_newline_cutBlocks filled zoned⟩
  have part := (kept_sublist size).map Prod.snd
  rwa [← lines, map_snd_numbered, map_snd_numbered] at part

namespace CommentMarkers

variable {markers : CommentMarkers}

/-- Taking the block comments out of a source comes to an end, and the lines stay. -/
theorem cutBlocks_keepsLines (starts : markers.blockStart ≠ "") (stops : markers.blockStop ≠ "")
    (source : List Char) :
    Pattern.Run.loop (round markers.blockStart.toList markers.blockStop.toList) ([], source) =
        some (markers.cutBlocks source) ∧
      ∃ zones, Zoned markers.blockStart.toList markers.blockStop.toList source zones ∧
        (∀ others, Zoned markers.blockStart.toList markers.blockStop.toList source others →
          others = zones) ∧
        KeepsLines source (markers.cutBlocks source) zones := by
  have filled : markers.blockStart.toList ≠ [] := fun empty =>
    starts (String.toList_eq_nil_iff.1 empty)
  have both : ¬ (markers.blockStart.isEmpty || markers.blockStop.isEmpty) = true := by
    simpa using ⟨starts, stops⟩
  rw [CommentMarkers.cutBlocks, if_neg both]
  obtain ⟨zones, zoned⟩ := exists_zoned filled markers.blockStop.toList source
  refine ⟨loop_round filled [] source, zones, zoned, fun others alsoZoned => ?_,
    keepsLines_cutBlocks filled zoned⟩
  exact alsoZoned.unique filled zoned

/-- Markers of several bytes with a line end in one of them, a start marker that overlaps itself,
and a comment that is not closed. -/
theorem cutBlocks_keepsLines_paragraphs :
    let markers : CommentMarkers := ⟨"", "¶\n¶", "§"⟩
    let source := "a¶\n¶\n¶§b\n¶\n¶c§\nd¶\n¶e\n".toList
    markers.blockStart ≠ "" ∧ markers.blockStop ≠ "" ∧
      markers.cutBlocks source = "a\n\nb\n\n\nd".toList ∧
      Pattern.Run.loop (round markers.blockStart.toList markers.blockStop.toList) ([], source) =
        some "a\n\nb\n\n\nd".toList ∧
      ∃ zones, Zoned markers.blockStart.toList markers.blockStop.toList source zones ∧
        KeepsLines source "a\n\nb\n\n\nd".toList zones := by
  intro markers source
  have starts : markers.blockStart ≠ "" := by decide
  have stops : markers.blockStop ≠ "" := by decide
  have cut : markers.cutBlocks source = "a\n\nb\n\n\nd".toList := by decide +kernel
  obtain ⟨ends, zones, zoned, -, keeps⟩ := cutBlocks_keepsLines starts stops source
  rw [cut] at ends keeps
  exact ⟨starts, stops, cut, ends, zones, zoned, keeps⟩

end CommentMarkers

end GodotGraph.Scope
