import GodotGraph.Proofs.Script.HeaderAgreement

/-!
Contract: how often the header of a class is counted.

Owns:
- class headers by the lines they stand at and the scopes that read them;
- the counts of a script as those of its readings;
- when the reading of a header fails.

Does not own: the class header grammar beyond its colon.

A named scope reads all headers in it, those of the classes inside it as well, and so does every
other named scope around them. Only a header that no named scope covers is read once for sure.
-/

set_option autoImplicit false

namespace GodotGraph.Script

open Grammar (classKeyword headerEnd)
open Scope (Candidate tokensBetween)
open Token (newline ofGodot ofLines)

/-! ## Headers of lines -/

/-- The keyword of a class is always the first token of its line. -/
def ClassesLead (file : FileRecord) : Prop :=
  ∀ line ∈ codeLines file, classKeyword ∉ (ofGodot line).tail

instance (file : FileRecord) : Decidable (ClassesLead file) :=
  inferInstanceAs (Decidable (∀ line ∈ codeLines file, classKeyword ∉ (ofGodot line).tail))

/-- The class header at a line as it is read in the lines up to another one. -/
def headerBetween (lines : List (List Char)) (start stop : Nat) : Attempt :=
  Grammar.classHeader.parseWindow ⟨0, classKeyword, (tokensBetween lines start stop).tail⟩

theorem headerAttempts_ofLines (lines : List (List Char)) :
    headerAttempts (ofLines lines) = headerAttempts (ofGodot (['\n'].intercalate lines)) := by
  cases lines with
  | nil => rfl
  | cons line rest =>
      have opened : ofLines (line :: rest) = newline :: (ofGodot line ++ ofLines rest) := rfl
      rw [opened, headerAttempts_cons, if_neg (by decide), Token.ofGodot_intercalate,
        List.nil_append]

theorem classKeyword_not_mem_of_not_opens {line : List Char} (inLine : '\n' ∉ line)
    (leads : classKeyword ∉ (ofGodot line).tail) (opens : splitter.startsAtLine line = false) :
    classKeyword ∉ ofGodot line := by
  rw [splitter.startsAtLine_eq_any_head? rfl inLine] at opens
  cases tokens : ofGodot line with
  | nil => exact List.not_mem_nil
  | cons token rest =>
      rw [tokens] at leads opens
      have other : token ≠ classKeyword := by
        simpa [Scope.Splitter.isAnchor, splitter] using opens
      exact fun member => (List.mem_cons.1 member).elim (fun same => other same.symm) leads

/-- The headers that are read in some lines are those at the lines that open a class. -/
theorem headerAttempts_tokensBetween {lines : List (List Char)}
    (inLines : ∀ line ∈ lines, '\n' ∉ line)
    (leads : ∀ line ∈ lines, classKeyword ∉ (ofGodot line).tail) (stop : Nat)
    {rest : List (List Char)} {start : Nat} (place : lines.drop start = rest) :
    headerAttempts (tokensBetween lines start stop) =
      ((splitter.indentedFrom start rest).filter fun line => decide (line.start < stop)).map
        fun line => headerBetween lines line.start stop := by
  -- The lines that are left shrink and the last line to read stays where it is.
  induction rest generalizing start with
  | nil =>
      rw [tokensBetween, place, List.take_nil]
      rfl
  | cons line others inductionHypothesis =>
      have member : line ∈ lines := List.mem_of_mem_drop (by rw [place]; exact List.mem_cons_self)
      have below : lines.drop (start + 1) = others := by
        rw [← List.drop_drop, place]
        rfl
      have later := inductionHypothesis below
      by_cases before : start < stop
      · have tail : headerAttempts (ofLines (others.take (stop - (start + 1)))) =
            headerAttempts (tokensBetween lines (start + 1) stop) := by
          rw [headerAttempts_ofLines, tokensBetween, below]
        have whole := Scope.tokensBetween_of_drop place before
        cases opens : splitter.startsAtLine line with
        | true =>
            obtain ⟨header, first⟩ := ofGodot_of_startsAtLine (inLines line member) opens
            have absent : classKeyword ∉ header := by
              have inTail := leads line member
              rwa [first, List.tail_cons] at inTail
            have here : headerBetween lines start stop = Grammar.classHeader.parseWindow
                ⟨0, classKeyword, header ++ ofLines (others.take (stop - (start + 1)))⟩ := by
              rw [headerBetween, whole, first]
              rfl
            rw [splitter.indentedFrom_cons_of_opens start others opens, List.filter_cons_of_pos
              (by simpa using before), List.map_cons, ← later, ← tail, here, whole, first,
              List.cons_append, headerAttempts_cons, if_pos rfl,
              headerAttempts_append_of_not_mem absent, List.singleton_append]
        | false =>
            have absent := classKeyword_not_mem_of_not_opens (inLines line member)
              (leads line member) opens
            rw [whole, headerAttempts_append_of_not_mem absent, tail, later,
              Scope.Splitter.indentedFrom, opens]
            rfl
      · have none : (splitter.indentedFrom start (line :: others)).filter
            (fun line => decide (line.start < stop)) = [] := by
          refine List.filter_eq_nil_iff.2 fun candidate inRest => ?_
          have after := splitter.le_start_of_mem inRest
          simp only [decide_eq_true_eq]
          omega
        have empty : stop - start = 0 := by omega
        rw [none, tokensBetween, empty, List.take_zero]
        rfl

/-! ## Readings -/

/-- A line that opens a class, and a scope in which the header at the line is read. -/
structure HeaderReading where
  line : Candidate
  reader : Candidate

/-- The scopes that read the header at a line: its own region if the line is stray, and else the
named ones that cover it. -/
def readersOf (candidates : List Candidate) (line : Candidate) : List Candidate :=
  if splitter.Stray candidates line then [line]
  else candidates.filter fun reader =>
    decide (splitter.Names reader) && decide (reader.Covers line.start)

/-- The readings of the headers at some lines. -/
def headerReadings (candidates : List Candidate) : List HeaderReading :=
  candidates.flatMap fun line => (readersOf candidates line).map fun reader => ⟨line, reader⟩

/-- The class header at the line, up to the end of the scope that reads it. -/
def HeaderReading.attempt (file : FileRecord) (reading : HeaderReading) : Attempt :=
  headerBetween (codeLines file) reading.line.start reading.reader.stop

def HeaderReading.count (file : FileRecord) (reading : HeaderReading) : Count :=
  Count.ofAttempt (reading.attempt file)

section

variable {file : FileRecord}

theorem candidates_eq_indentedFrom :
    splitter.candidates file.source = splitter.indentedFrom 0 (codeLines file) := rfl

theorem exists_regionOf {line : Candidate} (member : line ∈ splitter.candidates file.source) :
    ∃ header, Scope.RegionOf (codeLines file) header line :=
  splitter.regionOf_of_mem rfl member

/-- A region reads the headers at the lines that it covers. -/
theorem headerAttempts_of_mem (leads : ClassesLead file) {reader : Candidate}
    (member : reader ∈ splitter.candidates file.source) :
    headerAttempts reader.tokens =
      ((splitter.candidates file.source).filter fun line =>
        decide (reader.Covers line.start)).map
          fun line => HeaderReading.attempt file ⟨line, reader⟩ := by
  obtain ⟨header, region⟩ := exists_regionOf member
  have atStart := splitter.filter_indentedFrom 0 reader.start (codeLines file)
  rw [Nat.zero_add, ← candidates_eq_indentedFrom] at atStart
  rw [region.tokens_eq, headerAttempts_tokensBetween (fun line => newline_not_mem_codeLines)
    leads reader.stop rfl, ← atStart, List.filter_filter]
  congr 1
  refine List.filter_congr fun line _ => ?_
  rw [← Bool.decide_and, decide_eq_decide]
  exact And.comm

theorem exists_following {line : Candidate} (member : line ∈ splitter.candidates file.source)
    {stop : Nat} (before : line.start < stop) :
    ∃ following, tokensBetween (codeLines file) line.start stop = classKeyword :: following := by
  obtain ⟨place, first, rest, found, opens, same⟩ := splitter.exists_place_of_mem member
  have atStart : (codeLines file).drop line.start = first :: rest := by
    rw [same, Nat.zero_add]
    exact found
  have inLines : first ∈ codeLines file :=
    List.mem_of_mem_drop (by rw [atStart]; exact List.mem_cons_self)
  obtain ⟨header, keyword⟩ := ofGodot_of_startsAtLine (newline_not_mem_codeLines inLines) opens
  exact ⟨_, by rw [Scope.tokensBetween_of_drop atStart before, keyword, List.cons_append]⟩

theorem rejectedCounts_cons (token : String) (rest : List String) :
    rejectedCounts (token :: rest) =
      [Count.ofAttempt (Grammar.classHeader.parseWindow ⟨0, token, rest⟩)] := rfl

theorem rejectedCounts_of_mem {line : Candidate}
    (member : line ∈ splitter.candidates file.source) :
    rejectedCounts line.tokens = [HeaderReading.count file ⟨line, line⟩] := by
  obtain ⟨header, region⟩ := exists_regionOf member
  obtain ⟨following, opened⟩ := exists_following member region.nonempty
  rw [HeaderReading.count, HeaderReading.attempt, headerBetween, region.tokens_eq, opened,
    rejectedCounts_cons, List.tail_cons]

theorem map_filter_eq_flatMap {α β : Type} (wanted : α → Prop) [DecidablePred wanted]
    (value : α → β) (list : List α) :
    (list.filter fun a => decide (wanted a)).map value =
      list.flatMap fun a => if wanted a then [value a] else [] := by
  induction list with
  | nil => rfl
  | cons a others inductionHypothesis =>
      rw [List.flatMap_cons]
      split
      · next holds =>
          rw [List.filter_cons_of_pos (by simpa using holds), List.map_cons, inductionHypothesis,
            List.singleton_append]
      · next fails =>
          rw [List.filter_cons_of_neg (by simpa using fails), inductionHypothesis, List.nil_append]

/-- Pairs that are related can be listed from either side. -/
theorem flatMap_filter_perm {α β γ : Type} (related : α → β → Prop)
    [∀ a b, Decidable (related a b)] (value : α → β → γ) (first : List α) (second : List β) :
    (first.flatMap fun a => (second.filter fun b => decide (related a b)).map (value a)).Perm
      (second.flatMap fun b =>
        (first.filter fun a => decide (related a b)).map fun a => value a b) := by
  induction first with
  | nil => simp
  | cons a others inductionHypothesis =>
      have heads : (fun b => ((a :: others).filter fun a => decide (related a b)).map
            fun a => value a b) =
          fun b => (if related a b then [value a b] else []) ++
            (others.filter fun a => decide (related a b)).map fun a => value a b := by
        funext b
        split
        · next holds =>
            rw [List.filter_cons_of_pos (by simpa using holds)]
            rfl
        · next fails =>
            rw [List.filter_cons_of_neg (by simpa using fails)]
            rfl
      rw [List.flatMap_cons, map_filter_eq_flatMap, heads]
      exact (inductionHypothesis.append_left _).trans (List.flatMap_append_perm _ _ _)

/-- A stray line is read in its own region, any other one in the named regions that cover it. -/
theorem map_readersOf {α : Type} (value : Candidate → α) (candidates : List Candidate)
    (line : Candidate) :
    (readersOf candidates line).map value =
      (if splitter.Stray candidates line then [value line] else []) ++
        ((candidates.filter fun reader => decide (splitter.Names reader)).filter fun reader =>
          decide (reader.Covers line.start)).map value := by
  rw [List.filter_filter, readersOf]
  by_cases stray : splitter.Stray candidates line
  · have uncovered : (candidates.filter fun reader =>
        decide (reader.Covers line.start) && decide (splitter.Names reader)) = [] := by
      refine List.filter_eq_nil_iff.2 fun reader member both => ?_
      simp only [Bool.and_eq_true, decide_eq_true_eq] at both
      exact stray.2 reader member both.2 both.1
    rw [if_pos stray, if_pos stray, uncovered]
    rfl
  · rw [if_neg stray, if_neg stray, List.nil_append]
    simp only [Bool.and_comm]

/-- The readings at stray lines, and those in named regions scope by scope. -/
theorem map_headerReadings_perm {α : Type} (value : HeaderReading → α)
    (candidates : List Candidate) :
    (((candidates.filter fun line => decide (splitter.Stray candidates line)).map
          fun line => value ⟨line, line⟩) ++
        (candidates.filter fun reader => decide (splitter.Names reader)).flatMap fun reader =>
          (candidates.filter fun line => decide (reader.Covers line.start)).map
            fun line => value ⟨line, reader⟩).Perm
      ((headerReadings candidates).map value) := by
  have readings : (fun line => ((readersOf candidates line).map fun reader =>
        HeaderReading.mk line reader).map value) =
      fun line => (if splitter.Stray candidates line then [value ⟨line, line⟩] else []) ++
        ((candidates.filter fun reader => decide (splitter.Names reader)).filter fun reader =>
          decide (reader.Covers line.start)).map fun reader => value ⟨line, reader⟩ := by
    funext line
    rw [List.map_map]
    exact map_readersOf (fun reader => value ⟨line, reader⟩) candidates line
  have swapped := flatMap_filter_perm (fun (reader line : Candidate) => reader.Covers line.start)
    (fun reader line => value ⟨line, reader⟩)
    (candidates.filter fun reader => decide (splitter.Names reader)) candidates
  rw [map_filter_eq_flatMap, headerReadings, List.map_flatMap, readings]
  exact (swapped.append_left _).trans (List.flatMap_append_perm _ _ _)

theorem collects_split (file : FileRecord) :
    splitter.Collects (splitter.candidates file.source) (splitter.split file.source) :=
  splitter.collects_collect
    (Scope.ascending_of_starts (splitter.starts_indented rfl rfl file.source))

theorem counts_of_rejected (file : FileRecord) :
    (splitter.split file.source).rejected.flatMap rejectedCounts =
      ((splitter.candidates file.source).filter fun line =>
        decide (splitter.Stray (splitter.candidates file.source) line)).map
          fun line => HeaderReading.count file ⟨line, line⟩ := by
  rw [(collects_split file).rejected, List.flatMap_map, List.map_eq_flatMap]
  exact List.flatMap_congr fun line member =>
    rejectedCounts_of_mem (List.mem_of_mem_filter member)

theorem counts_of_bodies (leads : ClassesLead file) :
    (splitter.split file.source).bodies.flatMap
        (fun body => countsOf (headerAttempts body.tokens)) =
      ((splitter.candidates file.source).filter fun reader =>
        decide (splitter.Names reader)).flatMap fun reader =>
          ((splitter.candidates file.source).filter fun line =>
            decide (reader.Covers line.start)).map
              fun line => HeaderReading.count file ⟨line, reader⟩ := by
  have tokensOnly := List.flatMap_map (fun body : Scope.Body => body.tokens)
    (fun tokens => countsOf (headerAttempts tokens)) (splitter.split file.source).bodies
  rw [← tokensOnly, (collects_split file).map_tokens_bodies, List.flatMap_map]
  refine List.flatMap_congr fun reader member => ?_
  rw [headerAttempts_of_mem leads (List.mem_of_mem_filter member), countsOf, List.map_map]
  rfl

/-- What a script counts is what its readings give, up to order. -/
theorem counts_perm (leads : ClassesLead file) :
    (innerEntities file).2.Perm
      ((headerReadings (splitter.candidates file.source)).map fun reading =>
        reading.count file) := by
  have counts : (innerEntities file).2 =
      (splitter.split file.source).rejected.flatMap rejectedCounts ++
        (splitter.split file.source).bodies.flatMap
          fun body => countsOf (headerAttempts body.tokens) := rfl
  rw [counts, counts_of_rejected, counts_of_bodies leads]
  exact map_headerReadings_perm (fun reading => reading.count file) _

/-! ## Readings that fail -/

theorem mem_headerReadings {reading : HeaderReading}
    (member : reading ∈ headerReadings (splitter.candidates file.source)) :
    reading.line ∈ splitter.candidates file.source ∧ reading.line.start < reading.reader.stop ∧
      reading.reader.stop ≤ (codeLines file).length := by
  obtain ⟨line, inLines, reads⟩ := List.mem_flatMap.1 member
  obtain ⟨reader, among, rfl⟩ := List.mem_map.1 reads
  rw [readersOf] at among
  split at among
  · obtain rfl := List.mem_singleton.1 among
    obtain ⟨header, region⟩ := exists_regionOf inLines
    exact ⟨inLines, region.nonempty, region.bounded⟩
  · obtain ⟨inReaders, both⟩ := List.mem_filter.1 among
    obtain ⟨header, region⟩ := exists_regionOf inReaders
    simp only [Bool.and_eq_true, decide_eq_true_eq] at both
    exact ⟨inLines, both.2.2, region.bounded⟩

/-- A header is matched in a scope exactly if it is matched in the whole script, and its colon is
in the scope. -/
theorem attempt_isOk_iff {reading : HeaderReading}
    (member : reading ∈ headerReadings (splitter.candidates file.source)) :
    (reading.attempt file).isOk = true ↔
      (headerBetween (codeLines file) reading.line.start (codeLines file).length).isOk = true ∧
        headerEnd ∈ tokensBetween (codeLines file) reading.line.start reading.reader.stop := by
  obtain ⟨inLines, before, bounded⟩ := mem_headerReadings member
  have starts := Scope.tokensBetween_isPrefix before bounded (Nat.lt_of_lt_of_le before bounded)
  have marks : ∀ token ∈ tokensBetween (codeLines file) reading.line.start reading.reader.stop,
      ':' ∈ token.toList → token = headerEnd := Token.eq_mark_of_mem (by decide)
  obtain ⟨front, cut⟩ := exists_following inLines before
  obtain ⟨whole, uncut⟩ := exists_following inLines (Nat.lt_of_lt_of_le before bounded)
  rw [HeaderReading.attempt, headerBetween, headerBetween]
  rw [cut] at marks
  rw [cut, uncut, List.cons_prefix_cons] at starts
  rw [cut, uncut, List.tail_cons, List.tail_cons]
  constructor
  · intro matched
    cases run : Grammar.classHeader.parseWindow ⟨0, classKeyword, front⟩ with
    | error mismatch =>
        rw [run] at matched
        cases matched
    | ok found =>
        obtain ⟨token, inFront, colon⟩ := Grammar.exists_colon_of_classHeader rfl run
        obtain rfl := marks token (List.mem_cons_of_mem _ inFront) colon
        rw [← classHeader_parseWindow_of_isPrefix starts.2 inFront, run]
        exact ⟨rfl, List.mem_cons_of_mem _ inFront⟩
  · rintro ⟨matched, closed⟩
    have inFront : headerEnd ∈ front :=
      (List.mem_cons.1 closed).resolve_left (by decide)
    rw [classHeader_parseWindow_of_isPrefix starts.2 inFront]
    exact matched

theorem misses_eq_countP (leads : ClassesLead file) :
    (Tally.ofCounts (innerEntities file).2).misses =
      (headerReadings (splitter.candidates file.source)).countP
        fun reading => !(reading.attempt file).isOk := by
  show (innerEntities file).2.count .miss = _
  rw [(counts_perm leads).count_eq, List.count, List.countP_map]
  refine List.countP_congr fun reading _ => ?_
  rw [Function.comp_apply, HeaderReading.count]
  cases reading.attempt file with
  | error mismatch => simp [Count.ofAttempt, Except.isOk, Except.toBool]
  | ok found => simp [Count.ofAttempt, Except.isOk, Except.toBool]

/-- The header at the line is not matched, however far the script goes on. -/
def malformedAt (file : FileRecord) (line : Candidate) : Bool :=
  !(headerBetween (codeLines file) line.start (codeLines file).length).isOk

/-- Each reading of a header that fails costs one miss. A malformed header fails in every scope
that reads it, any other one in the scopes that end before its colon. -/
theorem misses_of_header_readings (leads : ClassesLead file) :
    (splitter.candidates file.source).map (fun line => line.start) =
        (List.range (codeLines file).length).filter (splitter.opensAt (codeLines file)) ∧
      (Tally.ofCounts (innerEntities file).2).misses =
        (headerReadings (splitter.candidates file.source)).countP
          (fun reading => !(reading.attempt file).isOk) ∧
      ∀ reading ∈ headerReadings (splitter.candidates file.source),
        (reading.attempt file).isOk = false ↔ malformedAt file reading.line = true ∨
          headerEnd ∉ tokensBetween (codeLines file) reading.line.start reading.reader.stop := by
  refine ⟨splitter.starts_indented rfl rfl file.source, misses_eq_countP leads, ?_⟩
  intro reading member
  rw [← Bool.not_eq_true, attempt_isOk_iff member, not_and_or, malformedAt, Bool.not_eq_true,
    Bool.not_eq_true']

end

/-- A header without a name inside a class, and another one on its own. -/
def namelessHeaders : FileRecord :=
  HeaderAt.fileOf "class A:\n\tclass func b():\n\t\tpass\nclass func c():\n"

theorem misses_of_header_readings_nameless :
    ClassesLead namelessHeaders ∧
      (Tally.ofCounts (innerEntities namelessHeaders).2).misses = 2 := by
  have leads : ClassesLead namelessHeaders := by decide +kernel
  obtain ⟨-, misses, -⟩ := misses_of_header_readings leads
  exact ⟨leads, misses.trans (by decide +kernel)⟩

/-- A header without a name inside two classes that have names. -/
def nestedNameless : FileRecord :=
  HeaderAt.fileOf "class A:\n\tclass B:\n\t\tclass func broken():\n\t\t\tpass\n"

/-- One malformed header, and both scopes around it count it. -/
theorem nested_header_misses_twice :
    ¬ ∀ file, ClassesLead file → (Tally.ofCounts (innerEntities file).2).misses =
      (splitter.candidates file.source).countP (malformedAt file) := by
  intro once
  have leads : ClassesLead nestedNameless := by decide +kernel
  have misses : (Tally.ofCounts (innerEntities nestedNameless).2).misses = 2 := by decide +kernel
  have malformed : (splitter.candidates nestedNameless.source).countP
      (malformedAt nestedNameless) = 1 := by decide +kernel
  have same := once nestedNameless leads
  rw [misses, malformed] at same
  exact absurd same (by decide)

/-! ## Malformed headers that are counted once -/

theorem countP_le_countP_flatMap {α β : Type} (part : α → List β) (fails : β → Bool)
    (bad : α → Bool) {list : List α}
    (share : ∀ a ∈ list, (if bad a then 1 else 0) ≤ (part a).countP fails) :
    list.countP bad ≤ (list.flatMap part).countP fails := by
  induction list with
  | nil => exact Nat.zero_le _
  | cons a rest inductionHypothesis =>
      obtain ⟨here, others⟩ := List.forall_mem_cons.1 share
      have later := inductionHypothesis others
      rw [List.flatMap_cons, List.countP_append, List.countP_cons]
      omega

/-- If every part has its share at least, then the total is that of the shares exactly if no part
has more. -/
theorem countP_flatMap_eq_countP_iff {α β : Type} (part : α → List β) (fails : β → Bool)
    (bad : α → Bool) {list : List α}
    (share : ∀ a ∈ list, (if bad a then 1 else 0) ≤ (part a).countP fails) :
    (list.flatMap part).countP fails = list.countP bad ↔
      ∀ a ∈ list, (part a).countP fails = if bad a then 1 else 0 := by
  induction list with
  | nil => simp
  | cons a rest inductionHypothesis =>
      obtain ⟨here, others⟩ := List.forall_mem_cons.1 share
      have later := countP_le_countP_flatMap part fails bad others
      rw [List.forall_mem_cons, ← inductionHypothesis others, List.flatMap_cons,
        List.countP_append, List.countP_cons]
      omega

section

variable {file : FileRecord}

theorem length_readersOf_pos {line : Candidate}
    (member : line ∈ splitter.candidates file.source) :
    0 < (readersOf (splitter.candidates file.source) line).length := by
  obtain ⟨header, region⟩ := exists_regionOf member
  rw [readersOf]
  split
  · exact Nat.one_pos
  · next notStray =>
      have covered : ∃ reader ∈ splitter.candidates file.source,
          splitter.Names reader ∧ reader.Covers line.start := by
        by_cases named : splitter.Names line
        · exact ⟨line, member, named, Nat.le_refl _, region.nonempty⟩
        · by_contra none
          exact notStray ⟨named, fun other among hasName covers =>
            none ⟨other, among, hasName, covers⟩⟩
      obtain ⟨reader, among, both⟩ := covered
      exact List.length_pos_of_mem (List.mem_filter.2 ⟨among, by simpa using both⟩)

/-- The failed readings of one header: all of them if it is malformed, and else those that do not
reach its colon. -/
theorem countP_readings_eq {line : Candidate} (member : line ∈ splitter.candidates file.source) :
    ((readersOf (splitter.candidates file.source) line).map (HeaderReading.mk line)).countP
        (fun reading => !(reading.attempt file).isOk) =
      (readersOf (splitter.candidates file.source) line).countP fun reader =>
        malformedAt file line ||
          decide (headerEnd ∉ tokensBetween (codeLines file) line.start reader.stop) := by
  rw [List.countP_map]
  refine List.countP_congr fun reader among => ?_
  have isReading : HeaderReading.mk line reader ∈
      headerReadings (splitter.candidates file.source) :=
    List.mem_flatMap.2 ⟨line, member, List.mem_map_of_mem among⟩
  have failure := not_congr (attempt_isOk_iff isReading)
  rw [not_and_or] at failure
  simpa [malformedAt] using failure

/-- There are as many misses as malformed headers exactly if every malformed header is read in one
scope only, and no scope that reads another header ends before its colon. -/
theorem misses_eq_malformed_iff (leads : ClassesLead file) :
    (Tally.ofCounts (innerEntities file).2).misses =
        (splitter.candidates file.source).countP (malformedAt file) ↔
      ∀ line ∈ splitter.candidates file.source,
        (malformedAt file line = true →
          (readersOf (splitter.candidates file.source) line).length = 1) ∧
        (malformedAt file line = false →
          ∀ reader ∈ readersOf (splitter.candidates file.source) line,
            headerEnd ∈ tokensBetween (codeLines file) line.start reader.stop) := by
  have shares : ∀ line ∈ splitter.candidates file.source,
      (if malformedAt file line then 1 else 0) ≤
        ((readersOf (splitter.candidates file.source) line).map (HeaderReading.mk line)).countP
          fun reading => !(reading.attempt file).isOk := by
    intro line member
    have read := length_readersOf_pos member
    rw [countP_readings_eq member]
    split
    · next malformed =>
        simp only [malformed, Bool.true_or, List.countP_true]
        omega
    · exact Nat.zero_le _
  rw [misses_eq_countP leads, headerReadings, countP_flatMap_eq_countP_iff _ _ _ shares]
  refine forall₂_congr fun line member => ?_
  rw [countP_readings_eq member]
  cases malformed : malformedAt file line with
  | true => simp
  | false => simp [List.countP_eq_zero]

end

end GodotGraph.Script
