import GodotGraph.Scan
import Mathlib.Data.List.TFAE
import Mathlib.Tactic.TFAE

/-!
Contract: errors of a report that are counted as they come.

Owns:
- reports on which a recount changes nothing;
- adding errors to such a report, one and many;
- the ways to see from a report that an error was critical.

Does not own: the counts of files, entities and edges beyond their recount.

A recount reads nothing but the lists of a report. So the reports on which it changes nothing are
those that have been counted, and one more error keeps them so.
-/

set_option autoImplicit false

namespace GodotGraph

namespace Report

/-! ## Recounts -/

/-- The figures of the report are those of a recount. -/
def Counted (report : Report) : Prop := report.finalize = report

theorem counted_empty (timestamp : Timestamp) : (empty timestamp).Counted := rfl

theorem counted_finalize (report : Report) : report.finalize.Counted := rfl

theorem errorCount_concat (severity : Severity) (errors : List ErrorEntry) (entry : ErrorEntry) :
    errorCount severity (errors ++ [entry]) =
      errorCount severity errors + if entry.severity = severity then 1 else 0 := by
  rw [errorCount, List.countP_append, List.countP_singleton]
  simp [errorCount]

section Counted

variable {report : Report} (counted : report.Counted)

include counted

theorem Counted.errors : report.summary.errors = report.errors.length := by
  rw [← counted]
  rfl

theorem Counted.warnings : report.summary.warnings = errorCount .warning report.errors := by
  rw [← counted]
  rfl

theorem Counted.criticalErrors :
    report.summary.criticalErrors = errorCount .critical report.errors := by
  rw [← counted]
  rfl

/-- One more error changes the three figures as a recount would, and no other figure. -/
theorem Counted.addError (entry : ErrorEntry) : (report.addError entry).Counted := by
  have figures : (report.addError entry).finalize.summary =
      (report.finalize.summary).countError entry.severity := by
    show ({ report.finalize.summary with
      errors := (report.errors ++ [entry]).length
      warnings := errorCount .warning (report.errors ++ [entry])
      criticalErrors := errorCount .critical (report.errors ++ [entry]) } : Summary) = _
    rw [errorCount_concat, errorCount_concat, List.length_append, List.length_singleton]
    rfl
  show ({ report.addError entry with
    summary := (report.addError entry).finalize.summary } : Report) = report.addError entry
  rw [figures, counted]
  rfl

theorem Counted.foldl_addError (added : List ErrorEntry) :
    (added.foldl Report.addError report).Counted := by
  induction added generalizing report with
  | nil => exact counted
  | cons entry rest inductionHypothesis => exact inductionHypothesis (counted.addError entry)

end Counted

/-! ## Added errors -/

theorem errors_foldl_addError (added : List ErrorEntry) (report : Report) :
    (added.foldl addError report).errors = report.errors ++ added := by
  induction added generalizing report with
  | nil => exact (List.append_nil _).symm
  | cons entry rest inductionHypothesis =>
      rw [List.foldl_cons, inductionHypothesis]
      exact List.append_assoc report.errors [entry] rest

theorem exitCode_eq_two_iff_hasCriticalErrors (report : Report) :
    report.exitCode = 2 ↔ report.hasCriticalErrors = true := by
  unfold exitCode
  cases report.hasCriticalErrors <;> simp

theorem errorCount_pos_iff (report : Report) :
    0 < errorCount .critical report.errors ↔ report.criticalErrors ≠ [] := by
  rw [errorCount, List.countP_eq_length_filter]
  exact List.length_pos_iff

/-- What a report says of a list of errors. -/
structure TellsErrors (report : Report) (errors : List ErrorEntry) : Prop where
  /-- They stand in the order in which they came. -/
  order : report.errors = errors
  total : report.summary.errors = errors.length
  warnings : report.summary.warnings = errors.countP fun entry => entry.severity = .warning
  critical : report.summary.criticalErrors = errors.countP fun entry => entry.severity = .critical
  /-- A recount finds the same figures, and so does a second one. -/
  recount : report.finalize.summary = report.summary
  again : report.finalize.finalize.summary = report.finalize.summary
  verdict : [report.hasCriticalErrors = true, report.criticalErrors ≠ [],
    0 < report.summary.criticalErrors, report.exitCode = 2].TFAE

theorem Counted.tellsErrors {report : Report} (counted : report.Counted) :
    report.TellsErrors report.errors := by
  refine ⟨rfl, counted.errors, counted.warnings, counted.criticalErrors, ?recount, rfl, ?verdict⟩
  case recount => rw [counted]
  case verdict =>
    have listed := report.hasCriticalErrors_iff
    have number : 0 < report.summary.criticalErrors ↔ report.criticalErrors ≠ [] := by
      rw [counted.criticalErrors, errorCount_pos_iff]
    have code := report.exitCode_eq_two_iff_hasCriticalErrors
    tfae_have 1 ↔ 2 := listed
    tfae_have 3 ↔ 2 := number
    tfae_have 4 ↔ 1 := code
    tfae_finish

/-- Whatever errors come to a report that is new or has just been counted, its figures stay those
of its list, and its four ways to tell of a critical error agree. An error counts by its severity
alone. -/
theorem addError_tellsErrors {start : Report}
    (origin : (∃ timestamp, start = empty timestamp) ∨ ∃ report : Report, start = report.finalize)
    (added : List ErrorEntry) :
    (added.foldl addError start).TellsErrors (start.errors ++ added) := by
  have counted : start.Counted := by
    rcases origin with ⟨timestamp, rfl⟩ | ⟨report, rfl⟩
    · exact counted_empty timestamp
    · exact counted_finalize report
  rw [← errors_foldl_addError added start]
  exact (counted.foldl_addError added).tellsErrors

/-- A report with an error that was not counted yet. -/
def uncountedReport : Report :=
  { empty Timestamp.epoch with errors := [⟨"a.gd", "unreadable", .warning⟩] }

theorem addError_tellsErrors_uncounted :
    (∃ report : Report, uncountedReport.finalize = report.finalize) ∧
      ([⟨"b.gd", "unreadable", .warning⟩, ⟨".", "bad settings", .critical⟩].foldl addError
        uncountedReport.finalize).TellsErrors
          [⟨"a.gd", "unreadable", .warning⟩, ⟨"b.gd", "unreadable", .warning⟩,
            ⟨".", "bad settings", .critical⟩] := by
  have origin : ∃ report : Report, uncountedReport.finalize = report.finalize :=
    ⟨uncountedReport, rfl⟩
  exact ⟨origin, addError_tellsErrors (.inr origin) _⟩

end Report

/-- The recount at the end of a scan changes nothing. -/
theorem Scan.reportOf_eq_foldl (run : Analysis.Run) (problems : List (String × Problem))
    (duration : Duration) (timestamp : Timestamp) :
    reportOf run problems duration timestamp =
      problems.foldl (fun report problem => report.addProblem problem.1 problem.2)
        (Report.ofRun run duration timestamp) := by
  have counted : (Report.ofRun run duration timestamp).Counted := Report.counted_finalize _
  have added := counted.foldl_addError
    (problems.map fun problem => Report.ErrorEntry.ofProblem problem.1 problem.2)
  rw [List.foldl_map] at added
  exact added

end GodotGraph
