import GodotGraph.Settings.Source
import Mathlib.Data.List.Induction

/-!
Contract: the precedence of sources of settings.

Owns:
- single settings, each of which layers and settings keep in a place of their own;
- the source that prevails for a setting, by priorities alone;
- loading sources in ascending order, one step and a whole run;
- loading sources in any order.

Does not own: what a source reads.

Which source prevails is said by comparing priorities and without any order of the sources. Where
no two sources have the same priority, the ascending order is the only one, so it makes no
difference how they were listed.
-/

set_option autoImplicit false

namespace GodotGraph.Settings

/-! ## Single settings -/

/-- One of the settings: what a layer decides about it, and what it is in the end. The upper of two
layers goes over the lower one, and what is left open has its standard value. -/
structure Setting (α : Type) where
  decided : Layer → Option α
  final : Settings → α
  decided_atop : ∀ upper lower : Layer,
    decided (upper.atop lower) = (decided upper).or (decided lower)
  final_resolve : ∀ layer : Layer, final layer.resolve = (decided layer).getD (final standard)

namespace Setting

/-- A setting that may have no value. A layer can give it one, but cannot take it away. -/
def optional {α : Type} (given : Layer → Option α) (final : Settings → Option α)
    (given_atop : ∀ upper lower : Layer, given (upper.atop lower) = (given upper).or (given lower))
    (final_resolve : ∀ layer : Layer, final layer.resolve = (given layer).or (final standard)) :
    Setting (Option α) where
  decided layer := (given layer).map some
  final := final
  decided_atop upper lower := by rw [given_atop, Option.map_or]
  final_resolve layer := by
    rw [final_resolve]
    cases given layer <;> rfl

def sourcePath : Setting String :=
  ⟨Layer.sourcePath, Settings.sourcePath, fun _ _ => rfl, fun _ => rfl⟩

def exclude : Setting (List String) :=
  ⟨Layer.exclude, Settings.exclude, fun _ _ => rfl, fun _ => rfl⟩

def maxDepth : Setting (Option Nat) :=
  optional Layer.maxDepth Settings.maxDepth (fun _ _ => rfl) fun _ => rfl

def followLinks : Setting Bool :=
  ⟨Layer.followLinks, Settings.followLinks, fun _ _ => rfl, fun _ => rfl⟩

def format : Setting Report.Format :=
  ⟨Layer.format, Settings.format, fun _ _ => rfl, fun _ => rfl⟩

def outputFile : Setting (Option String) :=
  optional Layer.outputFile Settings.outputFile (fun _ _ => rfl) fun _ => rfl

def quiet : Setting Bool := ⟨Layer.quiet, Settings.quiet, fun _ _ => rfl, fun _ => rfl⟩

def verbose : Setting Bool := ⟨Layer.verbose, Settings.verbose, fun _ _ => rfl, fun _ => rfl⟩

def colors : Setting Bool := ⟨Layer.colors, Settings.colors, fun _ _ => rfl, fun _ => rfl⟩

def parallel : Setting Bool := ⟨Layer.parallel, Settings.parallel, fun _ _ => rfl, fun _ => rfl⟩

def showProgress : Setting Bool :=
  ⟨Layer.showProgress, Settings.showProgress, fun _ _ => rfl, fun _ => rfl⟩

def includeScenes : Setting Bool :=
  ⟨Layer.includeScenes, Settings.includeScenes, fun _ _ => rfl, fun _ => rfl⟩

def logLevel : Setting (Option String) :=
  optional Layer.logLevel Settings.logLevel (fun _ _ => rfl) fun _ => rfl

end Setting

/-! ## Prevailing values -/

/-- The source does not decide the setting. -/
def Source.LeavesOpen {α : Type} (source : Source) (setting : Setting α) : Prop :=
  source.available = true → ∀ layer, source.load = .ok layer → setting.decided layer = none

/-- The source has no fault that would show. -/
def Source.Works (source : Source) : Prop :=
  source.available = true → ∃ layer, source.load = .ok layer

/-- The value of a setting: that of the available source of highest priority that decides it, else
the one from below, else the standard value. -/
inductive Prevails {α : Type} (sources : List Source) (below : Layer) (setting : Setting α) :
    α → Prop where
  | source {source : Source} {layer : Layer} {value : α} (member : source ∈ sources)
      (available : source.available = true) (loaded : source.load = .ok layer)
      (decided : setting.decided layer = some value)
      (topmost : ∀ other ∈ sources, source.priority < other.priority → other.LeavesOpen setting) :
      Prevails sources below setting value
  | below {value : α} (leftOpen : ∀ other ∈ sources, other.LeavesOpen setting)
      (decided : setting.decided below = some value) : Prevails sources below setting value
  | standard (leftOpen : ∀ other ∈ sources, other.LeavesOpen setting)
      (undecided : setting.decided below = none) :
      Prevails sources below setting (setting.final standard)

/-- Each of the settings has the value that prevails for it. -/
structure Decided (sources : List Source) (below : Layer) (settings : Settings) : Prop where
  sourcePath : Prevails sources below .sourcePath settings.sourcePath
  exclude : Prevails sources below .exclude settings.exclude
  maxDepth : Prevails sources below .maxDepth settings.maxDepth
  followLinks : Prevails sources below .followLinks settings.followLinks
  format : Prevails sources below .format settings.format
  outputFile : Prevails sources below .outputFile settings.outputFile
  quiet : Prevails sources below .quiet settings.quiet
  verbose : Prevails sources below .verbose settings.verbose
  colors : Prevails sources below .colors settings.colors
  parallel : Prevails sources below .parallel settings.parallel
  showProgress : Prevails sources below .showProgress settings.showProgress
  includeScenes : Prevails sources below .includeScenes settings.includeScenes
  logLevel : Prevails sources below .logLevel settings.logLevel

/-- What loading comes to: the fault of the available source of lowest priority that has one, or
settled settings if no available source has a fault. -/
inductive Outcome (sources : List Source) (Settled : Layer → Prop) :
    Except Problem Layer → Prop where
  | fails {source : Source} {problem : Problem} (member : source ∈ sources)
      (available : source.available = true) (failed : source.load = .error problem)
      (first : ∀ other ∈ sources, other.priority < source.priority → other.Works) :
      Outcome sources Settled (.error problem)
  | succeeds {layer : Layer} (works : ∀ source ∈ sources, source.Works)
      (settled : Settled layer) : Outcome sources Settled (.ok layer)

/-! ## One source -/

section Step

variable {α : Type} {setting : Setting α} {front : List Source} {last : Source} {below : Layer}

theorem forall_mem_concat {fact : Source → Prop} :
    (∀ source ∈ front ++ [last], fact source) ↔ (∀ source ∈ front, fact source) ∧ fact last := by
  simp [or_imp, forall_and]

/-- A source that leaves a setting open lets the value under it prevail. -/
theorem Prevails.of_leavesOpen {value : α} (prevails : Prevails front below setting value)
    (leavesOpen : last.LeavesOpen setting) : Prevails (front ++ [last]) below setting value := by
  cases prevails with
  | source member available loaded decided topmost =>
      exact .source (List.mem_append_left _ member) available loaded decided
        (forall_mem_concat.2 ⟨topmost, fun _ => leavesOpen⟩)
  | below leftOpen decided =>
      exact .below (forall_mem_concat.2 ⟨leftOpen, leavesOpen⟩) decided
  | standard leftOpen undecided =>
      exact .standard (forall_mem_concat.2 ⟨leftOpen, leavesOpen⟩) undecided

/-- Of ascending sources the last one prevails if it decides the setting. -/
theorem Prevails.of_last (ascending : ∀ other ∈ front, other.priority < last.priority)
    (available : last.available = true) {upper : Layer} (loaded : last.load = .ok upper)
    {lower : Layer} (prevails : Prevails front below setting (setting.final lower.resolve)) :
    Prevails (front ++ [last]) below setting (setting.final (upper.atop lower).resolve) := by
  rw [setting.final_resolve, setting.decided_atop]
  cases decided : setting.decided upper with
  | none =>
      rw [Option.none_or, ← setting.final_resolve]
      refine prevails.of_leavesOpen fun _ layer isLayer => ?_
      obtain rfl : upper = layer := by simpa [loaded] using isLayer
      exact decided
  | some value =>
      refine .source (List.mem_append_right _ List.mem_cons_self) available loaded decided ?_
      refine forall_mem_concat.2 ⟨fun other inFront above => ?_, fun above => ?_⟩
      · exact absurd (ascending other inFront) (Nat.lt_asymm above)
      · exact absurd above (Nat.lt_irrefl _)

end Step

/-! ## All sources -/

/-- Sources in ascending order, with no priority twice. -/
def Ascending (sources : List Source) : Prop :=
  sources.Pairwise fun lower upper => lower.priority < upper.priority

/-- Whatever setting is looked at, the layer has the value that prevails for it. -/
def EachPrevails (sources : List Source) (below layer : Layer) : Prop :=
  ∀ {α : Type} (setting : Setting α), Prevails sources below setting (setting.final layer.resolve)

theorem eachPrevails_nil (below : Layer) : EachPrevails [] below below := by
  intro α setting
  rw [setting.final_resolve]
  cases decided : setting.decided below with
  | none => exact .standard (by simp) decided
  | some value => exact .below (by simp) decided

/-- One more source of higher priority. -/
theorem Outcome.overlay {front : List Source} {last : Source} {below : Layer}
    {result : Except Problem Layer} (outcome : Outcome front (EachPrevails front below) result)
    (ascending : ∀ other ∈ front, other.priority < last.priority) :
    Outcome (front ++ [last]) (EachPrevails (front ++ [last]) below)
      (result.bind last.overlay) := by
  cases outcome with
  | fails member available failed first =>
      refine .fails (List.mem_append_left _ member) available failed ?_
      refine forall_mem_concat.2 ⟨first, fun lower => ?_⟩
      exact absurd lower (Nat.lt_asymm (ascending _ member))
  | @succeeds layer works settled =>
      show Outcome _ _ (last.overlay layer)
      rw [Source.overlay]
      cases available : last.available with
      | false =>
          have silent : ∀ {fact : Prop}, last.available = true → fact := by simp [available]
          refine .succeeds (forall_mem_concat.2 ⟨works, silent⟩) fun setting => ?_
          exact (settled setting).of_leavesOpen silent
      | true =>
          cases loaded : last.load with
          | error problem =>
              refine .fails (List.mem_append_right _ List.mem_cons_self) available loaded ?_
              refine forall_mem_concat.2 ⟨fun other inFront _ => works other inFront, ?_⟩
              exact fun lower => absurd lower (Nat.lt_irrefl _)
          | ok upper =>
              refine .succeeds (forall_mem_concat.2 ⟨works, fun _ => ⟨upper, loaded⟩⟩) ?_
              exact fun setting => (settled setting).of_last ascending available loaded

theorem outcome_overlayAll {sources : List Source} (ascending : Ascending sources)
    (below : Layer) :
    Outcome sources (EachPrevails sources below) (Source.overlayAll sources below) := by
  -- The last source overlays all others, so the induction takes sources off the end.
  induction sources using List.reverseRecOn with
  | nil => exact .succeeds (by simp) (eachPrevails_nil below)
  | append_singleton front last inductionHypothesis =>
      obtain ⟨frontAscending, -, cross⟩ := List.pairwise_append.1 ascending
      have run : Source.overlayAll (front ++ [last]) below =
          (Source.overlayAll front below).bind last.overlay := by
        rw [Source.overlayAll, List.foldlM_append]
        simp only [List.foldlM_cons, List.foldlM_nil, bind_pure]
        rfl
      rw [run]
      exact (inductionHypothesis frontAscending).overlay fun other member =>
        cross other member last List.mem_cons_self

/-! ## Any order -/

/-- No two sources have the same priority. -/
def Distinct (sources : List Source) : Prop :=
  sources.Pairwise fun left right => left.priority ≠ right.priority

theorem ascending_perm (sources : List Source) : (Source.ascending sources).Perm sources :=
  List.mergeSort_perm _ _

theorem ascending_ascending {sources : List Source} (distinct : Distinct sources) :
    Ascending (Source.ascending sources) := by
  have sorted : (Source.ascending sources).Pairwise fun left right =>
      decide (left.priority ≤ right.priority) = true :=
    List.pairwise_mergeSort (by simp; omega) (by simp; omega) sources
  have apart : Distinct (Source.ascending sources) :=
    ((ascending_perm sources).pairwise_iff Ne.symm).2 distinct
  refine sorted.imp₂ (fun left right atMost other => ?_) apart
  exact Nat.lt_of_le_of_ne (of_decide_eq_true atMost) other

theorem ascending_eq_of_perm {sources reordered : List Source} (distinct : Distinct sources)
    (perm : reordered.Perm sources) : Source.ascending reordered = Source.ascending sources := by
  have distinctReordered : Distinct reordered := (perm.pairwise_iff Ne.symm).2 distinct
  refine List.Perm.eq_of_pairwise (fun _ _ _ _ lower upper => absurd lower (Nat.lt_asymm upper))
    (ascending_ascending distinctReordered) (ascending_ascending distinct) ?_
  exact ((ascending_perm reordered).trans perm).trans (ascending_perm sources).symm

section Members

variable {sources reordered : List Source} (same : ∀ source, source ∈ reordered ↔ source ∈ sources)

include same

/-- Which sources there are decides what prevails, and not their order. -/
theorem Prevails.of_mem_iff {α : Type} {setting : Setting α} {below : Layer} {value : α}
    (prevails : Prevails reordered below setting value) : Prevails sources below setting value := by
  cases prevails with
  | source member available loaded decided topmost =>
      exact .source ((same _).1 member) available loaded decided fun other isSource =>
        topmost other ((same other).2 isSource)
  | below leftOpen decided =>
      exact .below (fun other isSource => leftOpen other ((same other).2 isSource)) decided
  | standard leftOpen undecided =>
      exact .standard (fun other isSource => leftOpen other ((same other).2 isSource)) undecided

theorem decided_of_eachPrevails {below layer : Layer}
    (each : EachPrevails reordered below layer) : Decided sources below layer.resolve where
  sourcePath := (each .sourcePath).of_mem_iff same
  exclude := (each .exclude).of_mem_iff same
  maxDepth := (each .maxDepth).of_mem_iff same
  followLinks := (each .followLinks).of_mem_iff same
  format := (each .format).of_mem_iff same
  outputFile := (each .outputFile).of_mem_iff same
  quiet := (each .quiet).of_mem_iff same
  verbose := (each .verbose).of_mem_iff same
  colors := (each .colors).of_mem_iff same
  parallel := (each .parallel).of_mem_iff same
  showProgress := (each .showProgress).of_mem_iff same
  includeScenes := (each .includeScenes).of_mem_iff same
  logLevel := (each .logLevel).of_mem_iff same

theorem Outcome.of_mem_iff {below : Layer} {result : Except Problem Layer}
    (outcome : Outcome reordered (EachPrevails reordered below) result) :
    Outcome sources (fun layer => Decided sources below layer.resolve) result := by
  cases outcome with
  | fails member available failed first =>
      exact .fails ((same _).1 member) available failed fun other isSource =>
        first other ((same other).2 isSource)
  | succeeds works settled =>
      exact .succeeds (fun source isSource => works source ((same source).2 isSource))
        (decided_of_eachPrevails same settled)

end Members

/-- Loading sources of different priorities fails with the fault of the lowest available one that
has a fault. Otherwise every setting has the value of the highest available source that decides it,
else the one from below, else the standard value. The order in which the sources are listed makes
no difference, layers can be put together from either end, and the empty layer changes nothing. -/
theorem loadAll_by_priority {sources : List Source} (distinct : Distinct sources) (below : Layer) :
    Outcome sources (fun layer => Decided sources below layer.resolve)
        (Source.loadAll sources below) ∧
      (∀ reordered : List Source, reordered.Perm sources →
        Source.loadAll reordered below = Source.loadAll sources below) ∧
      (∀ top middle bottom : Layer,
        (top.atop middle).atop bottom = top.atop (middle.atop bottom)) ∧
      ∀ layer : Layer, Layer.empty.atop layer = layer ∧ layer.atop Layer.empty = layer := by
  refine ⟨?outcome, ?order, Layer.atop_assoc, Layer.empty_atop⟩
  case outcome =>
    have outcome := outcome_overlayAll (ascending_ascending distinct) below
    exact outcome.of_mem_iff fun source => (ascending_perm sources).mem_iff
  case order =>
    intro reordered perm
    rw [Source.loadAll, ascending_eq_of_perm distinct perm, Source.loadAll]

/-- Three sources out of order. The fault of the one that is not available does not show. -/
def listedSources : List Source :=
  [⟨"command line", 30, true, .ok { Layer.empty with maxDepth := some 2 }⟩,
    ⟨"file", 10, true, .ok { Layer.empty with maxDepth := some 5, format := some .json }⟩,
    ⟨"environment", 20, false, .error (.settings "unreadable")⟩]

theorem loadAll_by_priority_listed :
    Distinct listedSources ∧
      Outcome listedSources (fun layer => Decided listedSources Layer.empty layer.resolve)
        (Source.loadAll listedSources Layer.empty) ∧
      Source.loadAll listedSources.reverse Layer.empty =
        Source.loadAll listedSources Layer.empty := by
  have distinct : Distinct listedSources := by
    unfold Distinct
    decide
  obtain ⟨outcome, order, -⟩ := loadAll_by_priority distinct Layer.empty
  exact ⟨distinct, outcome, order _ (List.reverse_perm _)⟩

example : (Source.loadAll listedSources Layer.empty).map (fun layer => layer.resolve) =
    .ok { Settings.standard with maxDepth := some 2, format := .json } := by
  cbv

end GodotGraph.Settings
