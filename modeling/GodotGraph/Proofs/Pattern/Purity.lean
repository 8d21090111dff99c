import GodotGraph.Proofs.Pattern.Agreement
import Mathlib.Data.List.MinMax

/-!
Contract: matching as if no captures were shared.

Owns:
- what the parts of a choice, a repetition and a group contribute to a reading;
- the run of every pattern, from any place of a text and with any captures before it, as
  the reading of the text left there.

A reader returns its own captures and nothing else, so a part that fails has nothing to
take back. That the matcher, which writes into one trail, never shows more than that is
the main result.

Does not own: the simulation itself, which is one lemma for each way of composing.
-/

set_option autoImplicit false

namespace GodotGraph.Pattern

namespace Reader

/-! ## Choices -/

/-- The readings of those alternatives that match. -/
def successes (text : List Char) (readers : List Reader) : List Reading :=
  readers.filterMap fun reader => (reader text).toOption

theorem successes_cons_ok {text : List Char} {reader : Reader} {found : Reading}
    (read : reader text = .ok found) (others : List Reader) :
    successes text (reader :: others) = found :: successes text others :=
  List.filterMap_cons_some (by rw [read]; rfl)

theorem successes_cons_error {text : List Char} {reader : Reader} {stuck : Stuck}
    (read : reader text = .error stuck) (others : List Reader) :
    successes text (reader :: others) = successes text others :=
  List.filterMap_cons_none (by rw [read]; rfl)

/-- The first choice is the first reading there is. -/
theorem firstOf_eq_ok_iff (label : String) {text : List Char} {readers : List Reader}
    {failure : Option Stuck} {found : Reading} :
    firstOf label text readers failure = .ok found ↔
      (successes text readers).head? = some found := by
  induction readers generalizing failure with
  | nil => cases failure <;> simp [firstOf, successes]
  | cons reader others inductionHypothesis =>
      unfold firstOf
      cases read : reader text with
      | ok first => simp [successes_cons_ok read]
      | error stuck =>
          rw [successes_cons_error read]
          exact inductionHypothesis

theorem longestOf_eq_ok_iff (label : String) {text : List Char} {readers : List Reader}
    {best : Option Reading} {failure : Option Stuck} {found : Reading} :
    longestOf label text readers best failure = .ok found ↔
      (successes text readers).foldl
        (List.argAux fun next reached => next.rest.length < reached.rest.length) best =
          some found := by
  induction readers generalizing best failure with
  | nil =>
      cases best with
      | some reached => simp [longestOf, successes]
      | none => cases failure <;> simp [longestOf, successes]
  | cons reader others inductionHypothesis =>
      unfold longestOf
      cases read : reader text with
      | error stuck =>
          rw [successes_cons_error read]
          exact inductionHypothesis
      | ok next =>
          rw [successes_cons_ok read, List.foldl_cons]
          cases best with
          | none => exact inductionHypothesis
          | some reached =>
              dsimp only [List.argAux]
              rw [inductionHypothesis]
              by_cases better : next.rest.length < reached.rest.length <;> simp [better]

/-- The longest choice is the reading that leaves least, the earliest one on a tie. -/
theorem longest_eq_ok_iff (label : String) {readers : List Reader} {text : List Char}
    {found : Reading} :
    longest label readers text = .ok found ↔
      (successes text readers).argmin (fun reading => reading.rest.length) = some found :=
  longestOf_eq_ok_iff label

/-! ## Repetitions -/

/-- Rounds of a reader up to the first that fails or reads nothing. -/
inductive Repeats (reader : Reader) : List Char → Reading → Prop where
  | stop {text : List Char} {stuck : Stuck} (read : reader text = .error stuck) :
      Repeats reader text ⟨text, []⟩
  | idle {text : List Char} {found : Reading} (read : reader text = .ok found)
      (stays : text.length ≤ found.rest.length) : Repeats reader text ⟨text, found.captures⟩
  | again {text : List Char} {found last : Reading} (read : reader text = .ok found)
      (moves : found.rest.length < text.length) (later : Repeats reader found.rest last) :
      Repeats reader text ⟨last.rest, found.captures ++ last.captures⟩

/-- More rounds than there are characters are never asked for. -/
theorem repeats_rounds (reader : Reader) {count : Nat} {text : List Char}
    (enough : text.length < count) : Repeats reader text (rounds reader count text) := by
  induction count generalizing text with
  | zero => omega
  | succ count inductionHypothesis =>
      unfold rounds
      cases read : reader text with
      | error stuck => exact .stop read
      | ok found =>
          dsimp only
          split
          · next moves => exact .again read moves (inductionHypothesis (by omega))
          · next stays => exact .idle read (Nat.not_lt.1 stays)

/-- A repetition always matches, with the captures of its rounds in order. -/
theorem repeats_zeroOrMore (reader : Reader) (text : List Char) :
    ∃ last, zeroOrMore reader text = .ok last ∧ Repeats reader text last :=
  ⟨_, rfl, repeats_rounds reader (Nat.lt_succ_self _)⟩

/-! ## Groups in any order -/

/-- Members of a group read one after the other until none of those left matches. -/
inductive Collects : List Member → List Char → List Member → Reading → Prop where
  | stop {members : List Member} {text : List Char}
      (none : ∀ member ∈ members, ∃ stuck, member.reader text = .error stuck) :
      Collects members text members ⟨text, []⟩
  | take {before after : List Member} {member : Member} {text : List Char} {left : List Member}
      {found last : Reading}
      (failed : ∀ earlier ∈ before, ∃ stuck, earlier.reader text = .error stuck)
      (read : member.reader text = .ok found)
      (later : Collects (before ++ after) found.rest left last) :
      Collects (before ++ member :: after) text left
        ⟨last.rest, found.captures ++ last.captures⟩

/-- A pick takes the first member that matches. -/
theorem pick_cases (text : List Char) (members : List Member) :
    (pick text members = none ∧ ∀ member ∈ members, ∃ stuck, member.reader text = .error stuck) ∨
      ∃ before member after found, members = before ++ member :: after ∧
        (∀ earlier ∈ before, ∃ stuck, earlier.reader text = .error stuck) ∧
          member.reader text = .ok found ∧ pick text members = some (found, before ++ after) := by
  induction members with
  | nil => exact Or.inl ⟨rfl, by simp⟩
  | cons member others inductionHypothesis =>
      unfold pick
      cases read : member.reader text with
      | ok found => exact Or.inr ⟨[], member, others, found, rfl, by simp, read, rfl⟩
      | error stuck =>
          have fails : ∃ stuck, member.reader text = .error stuck := ⟨stuck, read⟩
          rcases inductionHypothesis with ⟨nothing, all⟩ | ⟨before, chosen, after, found, shape,
            failed, readChosen, picked⟩
          · refine Or.inl ⟨by simp [nothing], ?_⟩
            intro other isMember
            rcases List.mem_cons.1 isMember with rfl | inside
            · exact fails
            · exact all other inside
          · refine Or.inr ⟨member :: before, chosen, after, found, by simp [shape], ?_, readChosen,
              by simp [picked]⟩
            intro earlier isMember
            rcases List.mem_cons.1 isMember with rfl | inside
            · exact fails
            · exact failed earlier inside

/-- Every pick uses up a member, so there are never more picks than members. -/
theorem collects_picks (count : Nat) {members : List Member} (enough : members.length ≤ count)
    (text : List Char) :
    ∃ left last, Collects members text left last ∧
      (∀ found, picks count members text = .ok found ↔
        found = last ∧ left.find? (fun member => member.required) = none) := by
  induction count generalizing members text with
  | zero =>
      obtain rfl : members = [] := List.length_eq_zero_iff.1 (by omega)
      exact ⟨[], ⟨text, []⟩, .stop (by simp), fun found => by
        simp [picks, picks.settle, eq_comm]⟩
  | succ count inductionHypothesis =>
      rcases pick_cases text members with ⟨nothing, all⟩ | ⟨before, member, after, first, rfl,
        failed, read, picked⟩
      · refine ⟨members, ⟨text, []⟩, .stop all, fun found => ?_⟩
        simp only [picks, nothing, picks.settle]
        cases members.find? fun member => member.required <;> simp [eq_comm]
      · have fewer : (before ++ after).length ≤ count := by
          simp only [List.length_append, List.length_cons] at enough ⊢
          omega
        obtain ⟨left, last, collects, outcome⟩ := inductionHypothesis fewer first.rest
        refine ⟨left, ⟨last.rest, first.captures ++ last.captures⟩, .take failed read collects,
          fun found => ?_⟩
        simp only [picks, picked]
        cases others : picks count (before ++ after) first.rest with
        | error stuck =>
            have never : ¬ left.find? (fun member => member.required) = none := by
              intro complete
              have ends := (outcome last).2 ⟨rfl, complete⟩
              rw [others] at ends
              cases ends
            simp [never]
        | ok final =>
            obtain ⟨rfl, complete⟩ := (outcome final).1 others
            simp [complete, eq_comm]

/-- A group reads its members in the order in which they match, and fails only if a required
one is left over. -/
theorem collects_anyOrder (members : List Member) (text : List Char) :
    ∃ left last, Collects members text left last ∧
      ∀ found, anyOrder members text = .ok found ↔
        found = last ∧ ∀ member ∈ left, member.required = false := by
  obtain ⟨left, last, collects, outcome⟩ := collects_picks members.length (Nat.le_refl _) text
  refine ⟨left, last, collects, fun found => ?_⟩
  rw [anyOrder, outcome found, List.find?_eq_none]
  simp

end Reader

/-! ## Meanings of patterns -/

/-- The members of a group, read by a meaning; an optional one stands for its inner pattern. -/
def memberOf (meaning : Pattern → Reader) : Pattern → Reader.Member
  | optional inner => ⟨false, inner.describe, meaning inner⟩
  | pattern => ⟨true, pattern.describe, meaning pattern⟩

/-- The readings of those patterns that match. -/
def matching (meaning : Pattern → Reader) (text : List Char) (patterns : List Pattern) :
    List Reading :=
  Reader.successes text (patterns.map meaning)

/-- A meaning in which the captures of a pattern are put together from those of the parts that
were read for it, and from nothing else. -/
structure Compositional (meaning : Pattern → Reader) : Prop where
  /-- Single words capture nothing. -/
  keyword : ∀ {word text found}, meaning (.keyword word) text = .ok found → found.captures = []
  literal : ∀ {word text found}, meaning (.literal word) text = .ok found → found.captures = []
  word : ∀ {opens continues text found},
    meaning (.word opens continues) text = .ok found → found.captures = []
  windowEnd : ∀ {text found}, meaning .windowEnd text = .ok found → found.captures = []
  /-- A sequence joins the captures of its parts. -/
  seqNil : ∀ text, meaning (.seq []) text = .ok ⟨text, []⟩
  seqCons : ∀ {part others text whole},
    meaning (.seq (part :: others)) text = .ok whole ↔
      ∃ found last, meaning part text = .ok found ∧ meaning (.seq others) found.rest = .ok last ∧
        whole = ⟨last.rest, found.captures ++ last.captures⟩
  /-- The longest choice is the alternative that leaves least, the earliest one on a tie. -/
  longest : ∀ {alternatives text found},
    meaning (.longest alternatives) text = .ok found ↔
      (matching meaning text alternatives).argmin (fun reading => reading.rest.length) =
        some found
  /-- The first choice is the first alternative that matches. -/
  first : ∀ {alternatives text found},
    meaning (.first alternatives) text = .ok found ↔
      (matching meaning text alternatives).head? = some found
  /-- An option that fails reads nothing. -/
  optional : ∀ {inner text},
    meaning (.optional inner) text = .ok ((meaning inner text).toOption.getD ⟨text, []⟩)
  /-- A repetition joins the captures of the rounds that match. -/
  zeroOrMore : ∀ inner text,
    ∃ last, meaning (.zeroOrMore inner) text = .ok last ∧
      Reader.Repeats (meaning inner) text last
  /-- A group joins the captures of its members in the order in which they are read. -/
  anyOrder : ∀ group text,
    ∃ left last, Reader.Collects (group.map (memberOf meaning)) text left last ∧
      ∀ found, meaning (.anyOrder group) text = .ok found ↔
        found = last ∧ ∀ member ∈ left, member.required = false
  /-- Skipping and looking ahead capture nothing. -/
  skipTo : ∀ {target text found}, meaning (.skipTo target) text = .ok found → found.captures = []
  ahead : ∀ {inner text found},
    meaning (.ahead inner) text = .ok found ↔
      found = ⟨text, []⟩ ∧ ∃ inside, meaning inner text = .ok inside
  notAhead : ∀ {inner text found},
    meaning (.notAhead inner) text = .ok found ↔
      found = ⟨text, []⟩ ∧ ∃ stuck, meaning inner text = .error stuck
  silent : ∀ {inner text found},
    meaning (.silent inner) text = .ok found ↔
      ∃ inside, meaning inner text = .ok inside ∧ found = ⟨inside.rest, []⟩
  /-- A name adds one capture, after those made inside it. -/
  named : ∀ {name inner text found},
    meaning (.named name inner) text = .ok found ↔
      ∃ inside, meaning inner text = .ok inside ∧
        found = ⟨inside.rest, inside.captures ++ [⟨name, String.ofList
          (Text.trim (Reader.between (Text.trimStart text) inside.rest))⟩]⟩

theorem readers_eq_map (patterns : List Pattern) : readers patterns = patterns.map reader := by
  induction patterns with
  | nil => rfl
  | cons pattern others inductionHypothesis =>
      rw [readers, inductionHypothesis, List.map_cons]

theorem memberReaders_eq_map (group : List Pattern) :
    memberReaders group = group.map (memberOf reader) := by
  induction group with
  | nil => rfl
  | cons pattern others inductionHypothesis =>
      cases pattern <;> simp [memberReaders, memberOf, inductionHypothesis]

/-- The readers are such a meaning. -/
theorem compositional_reader : Compositional reader where
  keyword := by
    intro word text found read
    simp only [reader, Reader.keyword] at read
    split at read <;> cases read
    rfl
  literal := by
    intro word text found read
    simp only [reader, Reader.literal] at read
    split at read <;> cases read
    rfl
  word := by
    intro opens continues text found read
    simp only [reader, Reader.word] at read
    split at read
    · split at read <;> cases read
      rfl
    · cases read
  windowEnd := by
    intro text found read
    simp only [reader, Reader.windowEnd] at read
    split at read <;> cases read
    rfl
  seqNil := fun text => rfl
  seqCons := by
    intro part others text whole
    simp only [reader, readers, Reader.sequence]
    cases reader part text with
    | error stuck => simp
    | ok found =>
        cases after : Reader.sequence (readers others) found.rest with
        | error stuck => simp [after]
        | ok last => simp [after, eq_comm]
  longest := by
    intro alternatives text found
    rw [reader, readers_eq_map]
    exact Reader.longest_eq_ok_iff _
  first := by
    intro alternatives text found
    rw [reader, readers_eq_map]
    exact Reader.firstOf_eq_ok_iff _
  optional := by
    intro inner text
    simp only [reader, Reader.optional]
    cases reader inner text <;> rfl
  zeroOrMore := fun inner text => Reader.repeats_zeroOrMore (reader inner) text
  anyOrder := by
    intro group text
    rw [reader, memberReaders_eq_map]
    exact Reader.collects_anyOrder _ text
  skipTo := by
    intro target text found read
    simp only [reader, Reader.skipTo] at read
    split at read <;> cases read
    rfl
  ahead := by
    intro inner text found
    simp only [reader, Reader.ahead]
    cases reader inner text <;> simp [eq_comm]
  notAhead := by
    intro inner text found
    simp only [reader, Reader.notAhead]
    cases reader inner text <;> simp [eq_comm]
  silent := by
    intro inner text found
    simp only [reader, Reader.silent]
    cases reader inner text <;> simp [eq_comm]
  named := by
    intro name inner text found
    simp only [reader, Reader.named]
    cases reader inner text with
    | ok inside => simp [eq_comm]
    | error stuck =>
        dsimp only
        split <;> simp

/-! ## Every pattern -/

theorem goto_of_append {before text read rest : List Char} (shape : text = read ++ rest) :
    (⟨byteLength before, text⟩ : Cursor).goto rest = ⟨byteLength (before ++ read), rest⟩ := by
  simp only [Cursor.goto, shape, byteLength_append, Cursor.mk.injEq, and_true]
  omega

/-- Patterns have a meaning in which captures are not shared. From any place of a text and with
any captures before it, a pattern ends where its meaning does and adds the captures of its
meaning, or fails where its meaning fails. -/
theorem matcher_reads :
    Compositional reader ∧
      ∀ (pattern : Pattern) (before text : List Char) (trail : Trail),
        match pattern.reader text with
        | .ok found =>
            ∃ read, text = read ++ found.rest ∧
              pattern.matcher ⟨byteLength before, text⟩ trail =
                (.ok ⟨byteLength (before ++ read), found.rest⟩, trail ++ found.captures)
        | .error stuck =>
            ∃ read left, text = read ++ stuck.rest ∧
              pattern.matcher ⟨byteLength before, text⟩ trail =
                (.error ⟨byteLength (before ++ read), stuck.expected⟩, trail ++ left) := by
  refine ⟨compositional_reader, ?_⟩
  intro pattern before text trail
  have agrees := simulates_reader pattern ⟨byteLength before, text⟩ trail
  cases outcome : pattern.reader text with
  | ok found =>
      rw [outcome] at agrees
      obtain ⟨⟨read, shape⟩, run⟩ := agrees
      exact ⟨read, shape.symm, by rw [run, goto_of_append shape.symm]⟩
  | error stuck =>
      rw [outcome] at agrees
      obtain ⟨⟨read, shape⟩, left, run⟩ := agrees
      refine ⟨read, left, shape.symm, ?_⟩
      rw [run, Cursor.mismatch, goto_of_append shape.symm]

end GodotGraph.Pattern
