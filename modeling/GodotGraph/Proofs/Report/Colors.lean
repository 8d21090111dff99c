import GodotGraph.Proofs.Text.Ansi
import GodotGraph.Report.Text

/-!
Contract: colours in text reports.

Owns:
- the strings that a report was given, as opposed to those that it adds;
- the parts of a text report that are painted;
- a text report with colours against the same report without.

Does not own: what else a report says, and in which formats.

A text report is put together from strings that it was given, from fixed ones and from numbers.
Colours stand around whole strings only.
-/

set_option autoImplicit false

namespace GodotGraph

open Text (IsPlain isPlain_append isPlain_toString isPlain_intercalate Painted escape)

theorem Language.isPlain_title (language : Language) : IsPlain language.title := by
  cases language <;> decide

theorem Severity.isPlain_label (severity : Severity) : IsPlain severity.label := by
  cases severity <;> decide

namespace Report

/-! ## Strings of a report -/

def FileEntry.strings (file : FileEntry) : List String :=
  file.key :: file.path :: file.moduleName.toList ++ file.resolved ++ file.unresolved

def EntityEntry.strings (entity : EntityEntry) : List String :=
  entity.uniqueName :: entity.localName :: entity.fileKey :: entity.moduleName.toList ++
    entity.inheritance ++ entity.resolved ++ entity.unresolved

def ErrorEntry.strings (entry : ErrorEntry) : List String := [entry.path, entry.message]

/-- All strings that stand in the report. -/
def strings (report : Report) : List String :=
  report.sourceRoot :: report.files.flatMap FileEntry.strings ++
    report.entities.flatMap EntityEntry.strings ++ report.errors.flatMap ErrorEntry.strings

/-! ## Entries -/

theorem painted_dependencyLines {resolved unresolved : List String}
    (known : ∀ name ∈ resolved, IsPlain name) (external : ∀ name ∈ unresolved, IsPlain name) :
    Painted (dependencyLines true resolved unresolved)
      (dependencyLines false resolved unresolved) := by
  unfold dependencyLines
  apply Painted.append
  · apply Painted.join
    intro name member
    apply Painted.append _ (.plain (by decide))
    exact .append (.plain (by decide)) (.paint .green (known name member))
  · apply Painted.join
    intro name member
    have start : IsPlain ("    -> " ++ name ++ " ") := by
      simp +decide only [isPlain_append, external name member]
    apply Painted.append _ (.plain (by decide))
    exact .append (.plain start) (.paint .dimmed (by decide))

theorem FileEntry.painted_text {file : FileEntry} (plain : ∀ text ∈ file.strings, IsPlain text) :
    Painted (file.text true) (file.text false) := by
  simp only [strings, List.forall_mem_append, List.forall_mem_cons] at plain
  obtain ⟨⟨⟨key, -, name⟩, known⟩, external⟩ := plain
  unfold FileEntry.text
  apply Painted.append _ (painted_dependencyLines known external)
  apply Painted.append
  · apply Painted.append _ (.plain (by decide))
    apply Painted.append _ (.plain file.language.isPlain_title)
    apply Painted.append _ (.plain (by decide))
    exact .append (.plain (by decide)) (.paint .boldBlue key)
  · cases found : file.moduleName with
    | none => exact .empty
    | some moduleName =>
        have line : IsPlain ("    module: " ++ moduleName ++ "\n") := by
          simp +decide only [isPlain_append, name moduleName (Option.mem_toList.2 found)]
        exact .plain line

theorem EntityEntry.painted_text {entity : EntityEntry} (verbose : Bool)
    (plain : ∀ text ∈ entity.strings, IsPlain text) :
    Painted (entity.text ⟨true, verbose⟩) (entity.text ⟨false, verbose⟩) := by
  simp only [strings, List.forall_mem_append, List.forall_mem_cons] at plain
  obtain ⟨⟨⟨⟨name, -, fileKey, -⟩, parents⟩, known⟩, external⟩ := plain
  unfold EntityEntry.text
  apply Painted.append
  · apply Painted.append _ (.plain (by decide))
    apply Painted.append _ (.plain (isPlain_toString _))
    apply Painted.append _ (.plain (by decide))
    apply Painted.append
    · exact .append (.plain (by decide)) (.paint .boldCyan name)
    · apply Painted.ite .empty
      apply Painted.append (.plain (by decide))
      exact .paint .purple (isPlain_intercalate (by decide) parents)
  · have declared : IsPlain ("declared in " ++ entity.fileKey) := by
      simp +decide only [isPlain_append, fileKey]
    apply Painted.ite _ .empty
    apply Painted.append _ (painted_dependencyLines known external)
    apply Painted.append _ (.plain (by decide))
    exact .append (.plain (by decide)) (.paint .dimmed declared)

theorem ErrorEntry.painted_text {entry : ErrorEntry}
    (plain : ∀ text ∈ entry.strings, IsPlain text) :
    Painted (entry.text true) (entry.text false) := by
  simp only [strings, List.forall_mem_cons] at plain
  obtain ⟨path, message, -⟩ := plain
  unfold ErrorEntry.text
  apply Painted.append _ (.plain (by decide))
  apply Painted.append _ (.plain message)
  apply Painted.append _ (.plain (by decide))
  apply Painted.append _ (.plain path)
  apply Painted.append _ (.plain (by decide))
  exact .append (.plain (by decide)) (.paint _ entry.severity.isPlain_label)

/-! ## Figures -/

theorem Summary.isPlain_text (summary : Summary) : IsPlain summary.text := by
  unfold Summary.text
  simp +decide only [isPlain_append, isPlain_toString, Decimal.Quotient.isPlain_text,
    Duration.isPlain_text]

theorem Summary.painted_errorText (summary : Summary) :
    Painted (summary.errorText true) (summary.errorText false) := by
  unfold Summary.errorText
  have title : IsPlain ("Errors encountered: " ++ toString summary.errors) := by
    simp +decide only [isPlain_append, isPlain_toString]
  apply Painted.ite .empty
  apply Painted.append _ (.plain (by decide))
  apply Painted.append _ (.plain (isPlain_toString _))
  apply Painted.append _ (.plain (by decide))
  apply Painted.append _ (.plain (by decide))
  apply Painted.append _ (.plain (isPlain_toString _))
  apply Painted.append _ (.plain (by decide))
  apply Painted.append _ (.plain (by decide))
  exact .append (.plain (by decide)) (.paint .boldYellow title)

/-! ## Whole reports -/

section

variable {report : Report} (plain : ∀ text ∈ report.strings, IsPlain text)

include plain

theorem painted_verboseText : Painted (verboseText true report) (verboseText false report) := by
  simp only [strings, List.forall_mem_append, List.forall_mem_cons, List.forall_mem_flatMap]
    at plain
  obtain ⟨⟨⟨-, files⟩, -⟩, errors⟩ := plain
  unfold verboseText
  apply Painted.append
  · apply Painted.append (.plain (by decide))
    exact .join fun file member => FileEntry.painted_text (files file member)
  · apply Painted.ite .empty
    apply Painted.append (.plain (by decide))
    exact .join fun entry member => ErrorEntry.painted_text (errors entry member)

theorem painted_text (verbose : Bool) :
    Painted (report.text ⟨true, verbose⟩) (report.text ⟨false, verbose⟩) := by
  have sections := painted_verboseText plain
  simp only [strings, List.forall_mem_append, List.forall_mem_cons, List.forall_mem_flatMap]
    at plain
  obtain ⟨⟨⟨root, -⟩, entities⟩, -⟩ := plain
  have rootLine : IsPlain
      (if report.sourceRoot = "" then "" else "Source root: " ++ report.sourceRoot ++ "\n") := by
    split
    · decide
    · simp +decide only [isPlain_append, root]
  unfold text
  apply Painted.append
  · apply Painted.append
    · apply Painted.append _ report.summary.painted_errorText
      apply Painted.append _ (.plain report.summary.isPlain_text)
      apply Painted.append _ (.plain rootLine)
      exact .append (.paint .boldBlue (by decide)) (.plain (by decide))
    · apply Painted.ite .empty
      apply Painted.append (.plain (by decide))
      exact .join fun entity member =>
        EntityEntry.painted_text verbose (entities entity member)
  · exact .ite sections .empty

/-- Colours never change what a text report says, whether it is verbose or not. -/
theorem text_uncolored (verbose : Bool) :
    Text.uncolored (report.text ⟨true, verbose⟩) = report.text ⟨false, verbose⟩ :=
  (painted_text plain verbose).uncolored

/-- Of the two, only the text with colours has an escape character. -/
theorem escape_mem_text_iff (style : TextStyle) :
    escape ∈ (report.text style).toList ↔ style.colors = true := by
  obtain ⟨colors, verbose⟩ := style
  cases colors with
  | false =>
      have without : escape ∉ (report.text ⟨false, verbose⟩).toList :=
        (painted_text plain verbose).isPlain
      simpa using without
  | true =>
      have title : ¬ IsPlain (Text.paint true .boldBlue "Godot Project Analysis") := by decide
      have whole : ¬ IsPlain (report.text ⟨true, verbose⟩) := by
        simp [text, isPlain_append, title]
      simpa [IsPlain] using whole

end

/-- A report with an entry of every kind. -/
def playerReport : Report where
  sourceRoot := "game"
  files := [⟨"player.gd", "game/player.gd", .script, some "", ["enemy.gd"], ["icon.png"]⟩]
  entities := [⟨"player.gd::Bag", "Bag", none, "player.gd", ["Node", "Resource"], [], ["Array"]⟩]
  summary := { Summary.empty Timestamp.epoch with errors := 1, warnings := 1 }
  errors := [⟨"game/broken.gd", "unreadable", .warning⟩]

theorem text_uncolored_player :
    (∀ text ∈ playerReport.strings, IsPlain text) ∧
      Text.uncolored (playerReport.text ⟨true, true⟩) = playerReport.text ⟨false, true⟩ := by
  have plain : ∀ text ∈ playerReport.strings, IsPlain text := by decide
  exact ⟨plain, text_uncolored plain true⟩

end Report

end GodotGraph
