import GodotGraph.Proofs.Analysis.Order
import Mathlib.Logic.Relation

/-!
Contract: runs whose sources are read at the same time.

Owns:
- the first phase as one job for each source, with the counters and the progress report that
  all jobs share;
- all orders in which the steps of the jobs can be taken, one job after the other or mixed;
- what every such run ends with.

A job never reads what it shares with the others: it counts, and it reports that its source
is read. What the jobs hand over is collected in the order of the sources, whichever job is
done first. The second phase works on the collected table alone and counts on.
-/

set_option autoImplicit false

namespace GodotGraph

namespace Tally

/-- The totals after one more attempt. -/
def increment (tally : Tally) : Count → Tally
  | .hit => { tally with hits := tally.hits + 1 }
  | .miss => { tally with misses := tally.misses + 1 }

theorem increment_eq_add (tally : Tally) (count : Count) :
    tally.increment count = tally.add (ofCounts [count]) := by
  cases count <;> rfl

theorem zero_add (tally : Tally) : Tally.add ⟨0, 0⟩ tally = tally := by
  simp only [add, Nat.zero_add]

theorem add_assoc (first second third : Tally) :
    (first.add second).add third = first.add (second.add third) := by
  simp only [add, Nat.add_assoc]

theorem foldl_increment (counts : List Count) (tally : Tally) :
    counts.foldl increment tally = tally.add (ofCounts counts) := by
  induction counts generalizing tally with
  | nil => rfl
  | cons count rest inductionHypothesis =>
      rw [List.foldl_cons, inductionHypothesis, increment_eq_add, add_assoc, ← ofCounts_append]
      rfl

end Tally

namespace Analysis.Schedule

/-! ## Jobs -/

/-- A step of a job that others can see: it counts an attempt, or it reports its source. -/
inductive Event where
  | count (outcome : Count)
  | visit (source : SourceFile)
  deriving DecidableEq, Repr

/-- The attempt that is counted, if it is one. -/
def Event.count? : Event → Option Count
  | count outcome => some outcome
  | visit _ => none

/-- The source that is reported, if it is one. -/
def Event.source? : Event → Option SourceFile
  | count _ => none
  | visit source => some source

/-- A source under way: the steps it has left, and what it hands over after them. -/
structure Job where
  events : List Event
  result : Option Extraction
  deriving DecidableEq, Repr

/-- The job of a source: it counts the attempts of its grammars as they are made, and then it
reports. A source of no wanted language is reported all the same. -/
def jobOf (analysis : Analysis) (source : SourceFile) : Job :=
  let extraction := analysis.extract? source
  { events := (extraction.elim [] fun extraction => extraction.counts).map .count ++ [.visit source]
    result := extraction }

/-- The counters, and the sources reported so far. -/
structure Shared where
  tally : Tally
  visited : List SourceFile
  deriving DecidableEq, Repr

/-- What is shared after a step. -/
def Shared.apply (shared : Shared) : Event → Shared
  | .count outcome => { shared with tally := shared.tally.increment outcome }
  | .visit source => { shared with visited := shared.visited ++ [source] }

/-- The first phase under way, with its jobs in the order of the sources. -/
structure State where
  jobs : List Job
  shared : Shared
  deriving DecidableEq, Repr

namespace State

/-- The steps that are left, in no order that matters. -/
def pending (state : State) : List Event :=
  state.jobs.flatMap fun job => job.events

/-- What the jobs hand over, in the order of the sources. -/
def results (state : State) : List (Option Extraction) :=
  state.jobs.map fun job => job.result

end State

/-- The first phase before its first step. -/
def start (analysis : Analysis) (sources : List SourceFile) : State :=
  ⟨sources.map (jobOf analysis), ⟨⟨0, 0⟩, []⟩⟩

/-- Some job takes its next step. In a parallel run it may be any job with steps left, else it
is the first one. -/
inductive Step (parallel : Bool) : State → State → Prop where
  | take {before after : List Job} {event : Event} {events : List Event}
      {result : Option Extraction} {shared : Shared}
      (turn : parallel = true ∨ ∀ job ∈ before, job.events = []) :
      Step parallel ⟨before ++ ⟨event :: events, result⟩ :: after, shared⟩
        ⟨before ++ ⟨events, result⟩ :: after, shared.apply event⟩

/-- The second phase, after the jobs of the first one have come this far. -/
def conclude (analysis : Analysis) (state : State) : Run :=
  let table := fileTable (state.results.filterMap id)
  { sourceRoot := analysis.sourceRoot
    table := finish table
    tally := (table.files.flatMap fun file => (innerEntities file).2).foldl
      Tally.increment state.shared.tally
    visited := state.shared.visited.length }

/-! ## Single steps -/

section Steps

variable {parallel : Bool} {state next last : State}

/-- A step takes one event away and applies it; what the jobs hand over stays. -/
theorem Step.spec (step : Step parallel state next) :
    ∃ event, state.pending.Perm (event :: next.pending) ∧
      next.shared = state.shared.apply event ∧ next.results = state.results := by
  obtain @⟨before, after, event, events, result, shared, _⟩ := step
  refine ⟨event, ?_, rfl, ?_⟩
  · simp only [State.pending, List.flatMap_append, List.flatMap_cons, List.cons_append]
    exact List.perm_middle
  · simp only [State.results, List.map_append, List.map_cons]

theorem exists_first_unfinished {jobs : List Job}
    (left : (jobs.flatMap fun job => job.events) ≠ []) :
    ∃ before event events result after, jobs = before ++ ⟨event :: events, result⟩ :: after ∧
      ∀ job ∈ before, job.events = [] := by
  induction jobs with
  | nil => exact absurd rfl left
  | cons job rest inductionHypothesis =>
      obtain ⟨events, result⟩ := job
      cases events with
      | cons event events => exact ⟨[], event, events, result, rest, rfl, by simp⟩
      | nil =>
          obtain ⟨before, event, events, found, after, split, done⟩ := inductionHypothesis left
          refine ⟨⟨[], result⟩ :: before, event, events, found, after, by rw [split]; rfl, ?_⟩
          intro job member
          rcases List.mem_cons.1 member with rfl | inside
          · rfl
          · exact done job inside

/-- As long as steps are left, one of them can be taken. -/
theorem exists_step (parallel : Bool) (left : state.pending ≠ []) :
    ∃ next, Step parallel state next := by
  obtain ⟨jobs, shared⟩ := state
  obtain ⟨before, event, events, result, after, rfl, done⟩ := exists_first_unfinished left
  exact ⟨_, Step.take (Or.inr done)⟩

theorem Step.length_pending_lt (step : Step parallel state next) :
    next.pending.length < state.pending.length := by
  obtain ⟨event, perm, _⟩ := step.spec
  rw [perm.length_eq, List.length_cons]
  exact Nat.lt_succ_self _

/-- No run takes steps forever. -/
theorem wellFounded_step (parallel : Bool) :
    WellFounded fun next state => Step parallel state next :=
  Subrelation.wf (fun step => step.length_pending_lt)
    (measure fun state : State => state.pending.length).wf

/-! ## Whole runs -/

theorem tally_foldl_apply (events : List Event) (shared : Shared) :
    (events.foldl Shared.apply shared).tally =
      shared.tally.add (Tally.ofCounts (events.filterMap Event.count?)) := by
  induction events generalizing shared with
  | nil => rfl
  | cons event rest inductionHypothesis =>
      rw [List.foldl_cons, inductionHypothesis]
      cases event with
      | visit source =>
          rw [List.filterMap_cons_none (show Event.count? (.visit source) = none from rfl)]
          rfl
      | count outcome =>
          rw [List.filterMap_cons_some (show Event.count? (.count outcome) = some outcome from rfl),
            ← List.singleton_append, Tally.ofCounts_append, ← Tally.add_assoc,
            ← Tally.increment_eq_add]
          rfl

theorem visited_foldl_apply (events : List Event) (shared : Shared) :
    (events.foldl Shared.apply shared).visited =
      shared.visited ++ events.filterMap Event.source? := by
  induction events generalizing shared with
  | nil => exact (List.append_nil _).symm
  | cons event rest inductionHypothesis =>
      rw [List.foldl_cons, inductionHypothesis]
      cases event with
      | count outcome => rfl
      | visit source =>
          rw [List.filterMap_cons_some (show Event.source? (.visit source) = some source from rfl)]
          exact List.append_assoc _ [source] _

/-- Whatever has happened so far, it was some of the events, in some order. -/
theorem reaches_spec (reached : Relation.ReflTransGen (Step parallel) state last) :
    ∃ taken : List Event, state.pending.Perm (taken ++ last.pending) ∧
      last.shared = taken.foldl Shared.apply state.shared ∧ last.results = state.results := by
  induction reached with
  | refl => exact ⟨[], List.Perm.refl _, rfl, rfl⟩
  | tail _ step inductionHypothesis =>
      obtain ⟨taken, perm, shared, results⟩ := inductionHypothesis
      obtain ⟨event, permStep, sharedStep, resultsStep⟩ := step.spec
      refine ⟨taken ++ [event], ?_, ?_, resultsStep.trans results⟩
      · rw [List.append_assoc]
        exact perm.trans (List.Perm.append_left taken permStep)
      · rw [sharedStep, shared, List.foldl_append]
        rfl

end Steps

/-! ## The start -/

theorem results_start (analysis : Analysis) (sources : List SourceFile) :
    (start analysis sources).results = sources.map analysis.extract? := by
  rw [State.results, start, List.map_map]
  rfl

theorem filterMap_pending_start (analysis : Analysis) (sources : List SourceFile) {α : Type}
    (view : Event → Option α) :
    (start analysis sources).pending.filterMap view =
      sources.flatMap fun source => (jobOf analysis source).events.filterMap view := by
  rw [State.pending, start, List.filterMap_flatMap, List.flatMap_map]

theorem filterMap_count?_jobOf (analysis : Analysis) (source : SourceFile) :
    (jobOf analysis source).events.filterMap Event.count? =
      (analysis.extract? source).toList.flatMap fun extraction => extraction.counts := by
  have counted : ∀ counts : List Count, (counts.map Event.count).filterMap Event.count? = counts :=
    fun counts => by rw [List.filterMap_map]; exact List.filterMap_some
  rw [jobOf, List.filterMap_append, counted]
  cases analysis.extract? source with
  | none => rfl
  | some extraction => rfl

theorem filterMap_source?_jobOf (analysis : Analysis) (source : SourceFile) :
    (jobOf analysis source).events.filterMap Event.source? = [source] := by
  have silent : ∀ counts : List Count, (counts.map Event.count).filterMap Event.source? = [] :=
    fun counts => by rw [List.filterMap_map]; exact List.filterMap_eq_nil_iff.2 fun _ _ => rfl
  rw [jobOf, List.filterMap_append, silent]
  rfl

theorem filterMap_count?_start (analysis : Analysis) (sources : List SourceFile) :
    (start analysis sources).pending.filterMap Event.count? =
      (sources.filterMap analysis.extract?).flatMap fun extraction => extraction.counts := by
  rw [filterMap_pending_start]
  simp only [filterMap_count?_jobOf]
  rw [← List.flatMap_assoc, List.filterMap_eq_flatMap_toList]

theorem filterMap_source?_start (analysis : Analysis) (sources : List SourceFile) :
    (start analysis sources).pending.filterMap Event.source? = sources := by
  rw [filterMap_pending_start]
  simp only [filterMap_source?_jobOf]
  exact List.flatMap_singleton' sources

/-! ## The end -/

section Ends

variable {analysis : Analysis} {parallel : Bool} {sources shuffled : List SourceFile} {last : State}

/-- When all jobs are done, every source has been reported once. -/
theorem visited_perm (perm : shuffled.Perm sources)
    (reached : Relation.ReflTransGen (Step parallel) (start analysis shuffled) last)
    (done : last.pending = []) : last.shared.visited.Perm sources := by
  obtain ⟨taken, events, shared, _⟩ := reaches_spec reached
  rw [done, List.append_nil] at events
  have reported := events.filterMap Event.source?
  rw [filterMap_source?_start] at reported
  have visited : last.shared.visited = taken.filterMap Event.source? := by
    rw [shared, visited_foldl_apply]
    rfl
  rw [visited]
  exact reported.symm.trans perm

/-- When all jobs are done, all attempts of the extractions are counted. -/
theorem tally_eq (perm : shuffled.Perm sources)
    (reached : Relation.ReflTransGen (Step parallel) (start analysis shuffled) last)
    (done : last.pending = []) :
    last.shared.tally = Tally.ofCounts
      ((sources.filterMap analysis.extract?).flatMap fun extraction => extraction.counts) := by
  obtain ⟨taken, events, shared, _⟩ := reaches_spec reached
  rw [done, List.append_nil] at events
  have counted := events.filterMap Event.count?
  rw [filterMap_count?_start] at counted
  have permExtractions := (perm.filterMap analysis.extract?).flatMap_right
    fun extraction => extraction.counts
  rw [shared, tally_foldl_apply]
  exact (Tally.zero_add _).trans (Tally.ofCounts_perm (counted.symm.trans permExtractions))

/-- When all jobs are done, the second phase leaves what a run over the sources leaves. -/
theorem conclude_eq_run (keys : (sources.map analysis.keyFor).Nodup)
    (names : (sources.filterMap className?).Nodup) (perm : shuffled.Perm sources)
    (reached : Relation.ReflTransGen (Step parallel) (start analysis shuffled) last)
    (done : last.pending = []) : conclude analysis last = analysis.run sources := by
  obtain ⟨_, _, _, results⟩ := reaches_spec reached
  have table : fileTable (last.results.filterMap id) =
      fileTable (sources.filterMap analysis.extract?) := by
    rw [results, results_start, List.filterMap_map]
    exact fileTable_sources_perm analysis keys names perm
  have visited : last.shared.visited.length = sources.length :=
    (visited_perm perm reached done).length_eq
  rw [conclude, run, table, Tally.foldl_increment, tally_eq perm reached done, visited]
  simp [List.filterMap_map, Tally.ofCounts_append]

end Ends

/-- A run over sources with different keys and different class names owes nothing to their
order, and nothing to whether or how the steps of its jobs are mixed: it comes to an end, it is
never stuck before all jobs are done, and then it leaves the same records and totals, with every
source reported once. -/
theorem every_schedule_concludes (analysis : Analysis) (parallel : Bool)
    {sources shuffled : List SourceFile} (keys : (sources.map analysis.keyFor).Nodup)
    (names : (sources.filterMap className?).Nodup) (perm : shuffled.Perm sources) :
    Acc (fun next state => Step parallel state next) (start analysis shuffled) ∧
      ∀ state, Relation.ReflTransGen (Step parallel) (start analysis shuffled) state →
        (state.pending ≠ [] → ∃ next, Step parallel state next) ∧
          (state.pending = [] → conclude analysis state = analysis.run sources ∧
            state.shared.visited.Perm sources) := by
  refine ⟨(wellFounded_step parallel).apply _, fun state reached => ⟨exists_step parallel, ?_⟩⟩
  intro done
  exact ⟨conclude_eq_run keys names perm reached done, visited_perm perm reached done⟩

/-- A script with a name and a parent. -/
def scriptA : SourceFile := ⟨"/work/game/a.gd", "class_name A\nextends B\n"⟩

/-- The parent of `scriptA`. -/
def scriptB : SourceFile := ⟨"/work/game/b.gd", "class_name B\n"⟩

/-- The scripts in the opposite order, read at the same time: the job that comes second reports
its source first. -/
theorem alternating_schedule_concludes :
    ([scriptA, scriptB].map gameAnalysis.keyFor).Nodup ∧
      ([scriptA, scriptB].filterMap className?).Nodup ∧ [scriptB, scriptA].Perm [scriptA, scriptB] ∧
      ∃ last, Relation.ReflTransGen (Step true) (start gameAnalysis [scriptB, scriptA]) last ∧
        last.shared.visited = [scriptA, scriptB] ∧ last.shared.tally = ⟨3, 0⟩ ∧
        conclude gameAnalysis last = gameAnalysis.run [scriptA, scriptB] := by
  have keys : ([scriptA, scriptB].map gameAnalysis.keyFor).Nodup := by decide +kernel
  have names : ([scriptA, scriptB].filterMap className?).Nodup := by decide +kernel
  have perm : [scriptB, scriptA].Perm [scriptA, scriptB] := List.Perm.swap ..
  have jobA : jobOf gameAnalysis scriptA =
      ⟨[.count .hit, .count .hit, .visit scriptA], gameAnalysis.extract? scriptA⟩ := by
    decide +kernel
  have jobB : jobOf gameAnalysis scriptB =
      ⟨[.count .hit, .visit scriptB], gameAnalysis.extract? scriptB⟩ := by
    decide +kernel
  have reached : Relation.ReflTransGen (Step true) (start gameAnalysis [scriptB, scriptA])
      ⟨[⟨[], gameAnalysis.extract? scriptB⟩, ⟨[], gameAnalysis.extract? scriptA⟩],
        ⟨⟨3, 0⟩, [scriptA, scriptB]⟩⟩ := by
    rw [start, List.map_cons, List.map_cons, List.map_nil, jobA, jobB]
    have first := fun {event events result after shared} =>
      @Step.take true [] after event events result shared (Or.inl rfl)
    have second := fun {job event events result after shared} =>
      @Step.take true [job] after event events result shared (Or.inl rfl)
    exact .head second (.head first (.head second (.head second (.head first .refl))))
  have done := (every_schedule_concludes gameAnalysis true keys names perm).2 _ reached
  exact ⟨keys, names, perm, _, reached, rfl, rfl, (done.2 rfl).1⟩

end Analysis.Schedule

end GodotGraph
