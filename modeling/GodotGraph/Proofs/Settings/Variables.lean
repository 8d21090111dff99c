import GodotGraph.Proofs.Text.Pieces
import GodotGraph.Settings.Environment

/-!
Contract: which environment variables count, and which of their values are refused.

Owns:
- the values that no layer may have, as one condition on a layer;
- an environment without foreign variables and without values that cannot be read;
- the faults of an environment, told by its variables alone.

Does not own: which patterns are valid, which is up to their reader.

A value that is looked up comes from the last binding of its name. So an environment is restricted
by names, and what is left of a name are all of its bindings or none.
-/

set_option autoImplicit false

namespace GodotGraph.Settings

/-! ## Values that no layer may have -/

namespace Layer

theorem isSome_patternProblem?_iff (origin pattern : String) :
    (patternProblem? origin pattern).isSome = true ↔
      pattern = "" ∨ ∀ glob, Glob.ofText pattern ≠ .ok glob := by
  unfold patternProblem?
  split
  · next empty => simp [empty]
  · next filled => cases Glob.ofText pattern <;> simp [filled]

/-- A layer is refused for one of five reasons, whatever its origin. -/
theorem exists_error_checked_iff (origin : String) (layer : Layer) :
    (∃ problem, layer.checked origin = .error problem) ↔
      layer.sourcePath = some "" ∨
        (∃ pattern ∈ layer.exclude.getD [],
          pattern = "" ∨ ∀ glob, Glob.ofText pattern ≠ .ok glob) ∨
        layer.maxDepth = some 0 ∨ layer.outputFile = some "" ∨
        ∃ level, layer.logLevel = some level ∧ Text.allBlank level.toList = true := by
  have refused : (∃ problem, layer.checked origin = .error problem) ↔
      (layer.problem? origin).isSome = true := by
    unfold checked
    cases layer.problem? origin <;> simp
  have excluded : (layer.excludeProblem? origin).isSome = true ↔
      ∃ pattern ∈ layer.exclude.getD [],
        pattern = "" ∨ ∀ glob, Glob.ofText pattern ≠ .ok glob := by
    simp only [excludeProblem?, List.findSome?_isSome_iff, isSome_patternProblem?_iff]
  rw [refused, problem?]
  simp only [Option.isSome_or, Bool.or_eq_true, excluded]
  simp [sourcePathProblem?, maxDepthProblem?, outputFileProblem?, logLevelProblem?,
    Option.any_eq_true]

end Layer

namespace Environment

/-! ## Restricted environments -/

/-- The full name of the variable with a key. -/
def nameOf (environment : Environment) (key : String) : String :=
  environment.family ++ "_" ++ key

/-- The environment with those variables only whose names are kept. -/
def restricted (environment : Environment) (kept : String → Bool) : Environment :=
  { environment with bindings := environment.bindings.filter fun entry => kept entry.1 }

theorem nameOf_inj {environment : Environment} {left right : String} :
    environment.nameOf left = environment.nameOf right ↔ left = right :=
  String.append_right_inj _

/-- Names are kept or lost with all of their bindings, so the last one of a name that is kept
counts as before. -/
theorem value?_restricted (environment : Environment) (kept : String → Bool) (key : String) :
    (environment.restricted kept).value? key =
      if kept (environment.nameOf key) then environment.value? key else none := by
  show ((environment.bindings.filter fun entry => kept entry.1).reverse.find? fun entry =>
    entry.1 = environment.nameOf key).map Prod.snd = _
  rw [← List.filter_reverse, List.find?_filter]
  split
  · next keeps =>
      show _ = (environment.bindings.reverse.find? fun entry =>
        entry.1 = environment.nameOf key).map Prod.snd
      congr 2
      funext entry
      by_cases same : entry.1 = environment.nameOf key <;> simp [same, keeps]
  · next loses =>
      have missing : environment.bindings.reverse.find? (fun entry =>
          decide (kept entry.1 = true ∧
            decide (entry.1 = environment.nameOf key) = true)) = none := by
        refine List.find?_eq_none.2 fun entry _ found => ?_
        obtain ⟨keeps, same⟩ : kept entry.1 = true ∧ entry.1 = environment.nameOf key := by
          simpa using found
        exact loses (same ▸ keeps)
      rw [missing]
      rfl

/-! ## Unreadable values -/

/-- The value of a variable can be read. Paths, lists of patterns and log levels are taken as they
are. -/
def isReadable (key value : String) : Bool :=
  if key = "MAX_DEPTH" then (number? value).isSome
  else if key = "OUTPUT_FORMAT" then (format? value).isSome
  else if key = "PARALLEL" || key = "INCLUDE_SCENES" then (switch? value).isSome
  else true

/-- The environment without the variables that do not count, and without those that count but have
a value that cannot be read. -/
def sifted (environment : Environment) : Environment :=
  environment.restricted fun name => keys.any fun key =>
    name = environment.nameOf key && (environment.value? key).all (isReadable key)

theorem value?_sifted (environment : Environment) {key : String} (counts : key ∈ keys) :
    environment.sifted.value? key = (environment.value? key).filter (isReadable key) := by
  have keeps : (keys.any fun other => environment.nameOf key = environment.nameOf other &&
      (environment.value? other).all (isReadable other)) =
        (environment.value? key).all (isReadable key) := by
    rw [Bool.eq_iff_iff, List.any_eq_true]
    constructor
    · rintro ⟨other, -, found⟩
      obtain ⟨same, readable⟩ := Bool.and_eq_true_iff.1 found
      obtain rfl : key = other := nameOf_inj.1 (of_decide_eq_true same)
      exact readable
    · intro readable
      exact ⟨key, counts, by simpa using readable⟩
  rw [sifted, value?_restricted, keeps]
  cases environment.value? key with
  | none => simp
  | some value => rw [Option.all_some, Option.filter_some]

/-- A reader makes nothing of the values that it cannot read. -/
theorem bind_filter_isSome {α β : Type} (value : Option α) (read : α → Option β) :
    (value.filter fun text => (read text).isSome).bind read = value.bind read := by
  cases value with
  | none => rfl
  | some text => cases found : read text <;> simp [Option.filter_some, found]

theorem layer_sifted (environment : Environment) :
    environment.sifted.layer = environment.layer := by
  have asItIs (key : String) (counts : key ∈ keys) (free : isReadable key = fun _ => true) :
      environment.sifted.value? key = environment.value? key := by
    rw [value?_sifted environment counts, free]
    cases environment.value? key <;> rfl
  have read {α : Type} (key : String) {reader : String → Option α} (counts : key ∈ keys)
      (tested : isReadable key = fun value => (reader value).isSome) :
      (environment.sifted.value? key).bind reader = (environment.value? key).bind reader := by
    rw [value?_sifted environment counts, tested, bind_filter_isSome]
  unfold layer
  rw [asItIs "SOURCE_PATH" (by decide) rfl, asItIs "EXCLUDE" (by decide) rfl,
    asItIs "OUTPUT_FILE" (by decide) rfl, asItIs "LOG_LEVEL" (by decide) rfl,
    read "MAX_DEPTH" (by decide) rfl, read "OUTPUT_FORMAT" (by decide) rfl,
    read "PARALLEL" (by decide) rfl, read "INCLUDE_SCENES" (by decide) rfl]

/-! ## Faults -/

/-- The variables are refused: a path is empty, the log level is blank, the depth is zero, or an
item between the commas of the list of patterns is none. -/
inductive Faulty (environment : Environment) : Prop where
  | sourcePath (empty : environment.value? "SOURCE_PATH" = some "")
  | outputFile (empty : environment.value? "OUTPUT_FILE" = some "")
  | logLevel {level : String} (given : environment.value? "LOG_LEVEL" = some level)
      (blank : ∀ c ∈ level.toList, Text.isBlank c = true)
  | maxDepth {depth : String} (given : environment.value? "MAX_DEPTH" = some depth)
      (zero : number? depth = some 0)
  | exclude {list : String} {item : List Char}
      (given : environment.value? "EXCLUDE" = some list) (listed : item ∈ list.toList.splitOn ',')
      (filled : Text.trim item ≠ [])
      (invalid : ∀ glob, Glob.ofText (String.ofList (Text.trim item)) ≠ .ok glob)

theorem mem_patterns_iff {list pattern : String} :
    pattern ∈ patterns list ↔ ∃ item ∈ list.toList.splitOn ',',
      Text.trim item ≠ [] ∧ String.ofList (Text.trim item) = pattern := by
  rw [patterns, List.mem_filter, List.mem_map, Text.pieces_eq_splitOn]
  constructor
  · rintro ⟨⟨item, listed, rfl⟩, filled⟩
    exact ⟨item, listed, by simpa using filled, rfl⟩
  · rintro ⟨item, listed, filled, rfl⟩
    exact ⟨⟨item, listed, rfl⟩, by simpa using filled⟩

theorem exists_error_load_iff (environment : Environment) :
    (∃ problem, environment.load = .error problem) ↔ environment.Faulty := by
  rw [load, Layer.exists_error_checked_iff]
  constructor
  · rintro (empty | ⟨pattern, listed, invalid⟩ | zero | empty | ⟨level, given, blank⟩)
    · exact .sourcePath empty
    · cases given : environment.value? "EXCLUDE" with
      | none => simp [layer, given] at listed
      | some list =>
          have isPattern : pattern ∈ patterns list := by simpa [layer, given] using listed
          obtain ⟨item, isItem, filled, rfl⟩ := mem_patterns_iff.1 isPattern
          exact .exclude given isItem filled (invalid.resolve_left (by simpa using filled))
    · obtain ⟨depth, given, isZero⟩ := Option.bind_eq_some_iff.1 zero
      exact .maxDepth given isZero
    · exact .outputFile empty
    · exact .logLevel given (List.all_eq_true.1 blank)
  · intro faulty
    cases faulty with
    | sourcePath empty => exact .inl empty
    | outputFile empty => exact .inr (.inr (.inr (.inl empty)))
    | logLevel given blank =>
        exact .inr (.inr (.inr (.inr ⟨_, given, List.all_eq_true.2 blank⟩)))
    | maxDepth given zero => exact .inr (.inr (.inl (Option.bind_eq_some_iff.2 ⟨_, given, zero⟩)))
    | @exclude list item given listed filled invalid =>
        have isPattern := mem_patterns_iff.2 ⟨item, listed, filled, rfl⟩
        refine .inr (.inl ⟨_, ?_, .inr invalid⟩)
        simpa [layer, given] using isPattern

/-- Foreign variables, and variables with a value that cannot be read, make no difference to what
is loaded. The variables that are left are refused exactly if one of them is at fault. -/
theorem load_sifted (environment : Environment) :
    environment.load = environment.sifted.load ∧
      ((∃ problem, environment.load = .error problem) ↔ environment.sifted.Faulty) := by
  have same : environment.load = environment.sifted.load := by
    unfold load
    rw [layer_sifted]
    rfl
  refine ⟨same, ?_⟩
  rw [same]
  exact exists_error_load_iff environment.sifted

example : (Environment.mk "GDSCAN" [("GDSCAN_MAX_DEPTH", "2"), ("GDSCAN_MAX_DEPTH", "deep"),
    ("GDSCAN_PARALLEL", " No "), ("OTHER_LOG_LEVEL", "")]).sifted.bindings =
      [("GDSCAN_PARALLEL", " No ")] := by
  cbv

end Environment

end GodotGraph.Settings
