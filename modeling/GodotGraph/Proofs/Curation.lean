import GodotGraph.Curation
import GodotGraph.Proofs.Record.Names
import GodotGraph.Proofs.Record.Table

/-!
Contract: which key a dependency is curated to.

Owns:
- the first key that contains a candidate, as the least of all keys that do;
- the dependencies of a file after curation, as the curated ones before it;
- the exact condition under which a dependency that is the key of a file stays.

A key that contains another one and sorts before it takes all its references. That is
the rule of the first key, not an accident of one project.
-/

set_option autoImplicit false

namespace GodotGraph

/-! ## Containment -/

namespace Text

theorem occursIn_self (text : List Char) : occursIn text text = true :=
  occursIn_iff.2 ⟨[], [], by simp⟩

theorem occursIn_trans {small middle large : List Char} (inner : occursIn small middle = true)
    (outer : occursIn middle large = true) : occursIn small large = true := by
  obtain ⟨before, after, middleShape⟩ := occursIn_iff.1 inner
  obtain ⟨first, last, largeShape⟩ := occursIn_iff.1 outer
  refine occursIn_iff.2 ⟨first ++ before, after ++ last, ?_⟩
  rw [largeShape, middleShape]
  simp

end Text

namespace Curation

/-! ## The first key -/

/-- In an ascending list the first key with a property is the least one. -/
theorem find?_eq_some_iff_least {keys : List String} (ascending : keys.Pairwise (· < ·))
    {wanted : String → Bool} {key : String} :
    keys.find? wanted = some key ↔
      key ∈ keys ∧ wanted key = true ∧ ∀ other ∈ keys, wanted other = true → key ≤ other := by
  induction keys with
  | nil => simp
  | cons head rest inductionHypothesis =>
      obtain ⟨first, others⟩ := List.pairwise_cons.1 ascending
      by_cases hit : wanted head = true
      · rw [List.find?_cons_of_pos hit]
        constructor
        · intro same
          obtain rfl : head = key := by simpa using same
          refine ⟨List.mem_cons_self, hit, ?_⟩
          intro other member _
          rcases List.mem_cons.1 member with rfl | inside
          · exact String.le_refl _
          · exact Std.le_of_lt (first other inside)
        · rintro ⟨member, _, least⟩
          rcases List.mem_cons.1 member with rfl | inside
          · rfl
          · have below : key ≤ head := least head List.mem_cons_self hit
            exact absurd (first key inside) (String.not_lt.2 below)
      · rw [List.find?_cons_of_neg hit, inductionHypothesis others]
        have differs : ∀ other, wanted other = true → other ≠ head := by
          rintro other found rfl
          exact hit found
        constructor
        · rintro ⟨member, found, least⟩
          refine ⟨List.mem_cons_of_mem _ member, found, ?_⟩
          intro other otherIn otherFound
          exact least other (List.mem_of_ne_of_mem (differs other otherFound) otherIn) otherFound
        · rintro ⟨member, found, least⟩
          refine ⟨List.mem_of_ne_of_mem (differs key found) member, found, ?_⟩
          intro other otherIn otherFound
          exact least other (List.mem_cons_of_mem _ otherIn) otherFound

/-- A dependency that names a file is searched for as it is written. -/
theorem candidate_of_namesFile {name : String} (complete : namesFile name = true)
    (language : Language) : candidate language name = name := by
  simp [candidate, complete]

/-- Curation gives a key that contains the candidate, or the dependency itself when no
key does. -/
theorem curate_cases (known : List String) (language : Language) (name : String) :
    known.find? (fun key => Text.occursIn (candidate language name).toList key.toList) =
        some (curate known language name) ∨
      curate known language name = name ∧
        ∀ key ∈ known, Text.occursIn (candidate language name).toList key.toList = false := by
  simp only [curate]
  cases found : known.find? fun key =>
      Text.occursIn (candidate language name).toList key.toList with
  | some key => exact Or.inl rfl
  | none =>
      refine Or.inr ⟨rfl, ?_⟩
      intro key member
      simpa using List.find?_eq_none.1 found key member

/-- A dependency that is itself a known key is curated to the least key that contains
it. -/
theorem curate_known {known : List String} (ascending : known.Pairwise (· < ·)) {name : String}
    (complete : namesFile name = true) (member : name ∈ known) (language : Language) :
    curate known language name ∈ known ∧
      Text.occursIn name.toList (curate known language name).toList = true ∧
      ∀ key ∈ known, Text.occursIn name.toList key.toList = true →
        curate known language name ≤ key := by
  rcases curate_cases known language name with found | ⟨_, nowhere⟩
  · rw [candidate_of_namesFile complete, find?_eq_some_iff_least ascending] at found
    exact found
  · have absent := nowhere name member
    rw [candidate_of_namesFile complete, Text.occursIn_self] at absent
    exact absurd absent (by decide)

/-- Nothing is curated to a key while an earlier key contains that key: the earlier one
contains every candidate that the later one does. -/
theorem curate_ne_of_earlier {known : List String} (ascending : known.Pairwise (· < ·))
    {name key : String} (complete : namesFile name = true) (earlier : key ∈ known)
    (before : key < name) (contains : Text.occursIn name.toList key.toList = true)
    (language : Language) (other : String) : curate known language other ≠ name := by
  intro same
  rcases curate_cases known language other with found | ⟨unchanged, nowhere⟩
  · rw [find?_eq_some_iff_least ascending, same] at found
    obtain ⟨_, inside, least⟩ := found
    have below : name ≤ key := least key earlier (Text.occursIn_trans inside contains)
    exact absurd before (String.not_lt.2 below)
  · obtain rfl : other = name := unchanged.symm.trans same
    have absent := nowhere key earlier
    rw [candidate_of_namesFile complete, contains] at absent
    exact absurd absent (by decide)

/-! ## The curated table -/

theorem mem_dependencies {known : List String} {file : FileRecord} {name : String} :
    name ∈ dependencies known file ↔
      ∃ written ∈ file.dependencies, curate known file.language written = name := by
  simp [dependencies, mem_addAllOnce]

/-- Every file is still there after curation, with its dependencies curated. -/
theorem file?_curateTable {table : RecordTable} {file : FileRecord} (stored : file ∈ table.files) :
    (curateTable table).file? file.key =
      some { file with dependencies := dependencies table.fileKeys file } := by
  have found : table.file? file.key = some file :=
    RecordTable.file?_eq_some_iff.2 ⟨RecordTable.mem_files.1 stored, rfl⟩
  rw [curateTable, RecordTable.file?_mapFiles, found]
  rfl

/-- A dependency that is the key of a file becomes the least file key that contains it. It
stays a dependency exactly if no key before it contains it. -/
theorem known_dependency_stays_iff {table : RecordTable}
    (complete : ∀ key ∈ table.fileKeys, namesFile key = true) {file : FileRecord}
    (stored : file ∈ table.files) {name : String} (listed : name ∈ file.dependencies)
    (known : name ∈ table.fileKeys) :
    ∃ curated target, (curateTable table).file? file.key = some curated ∧
      (target ∈ curated.dependencies ∧ target ∈ table.fileKeys ∧
        Text.occursIn name.toList target.toList = true ∧
        ∀ key ∈ table.fileKeys, Text.occursIn name.toList key.toList = true → target ≤ key) ∧
      (name ∈ curated.dependencies ↔
        ∀ key ∈ table.fileKeys, key < name → Text.occursIn name.toList key.toList = false) := by
  have ascending := RecordTable.pairwise_fileKeys table
  obtain ⟨targetKnown, targetHolds, targetLeast⟩ :=
    curate_known ascending (complete name known) known file.language
  have targetListed : curate table.fileKeys file.language name ∈
      dependencies table.fileKeys file := mem_dependencies.2 ⟨name, listed, rfl⟩
  refine ⟨_, curate table.fileKeys file.language name, file?_curateTable stored,
    ⟨targetListed, targetKnown, targetHolds, targetLeast⟩, ?_⟩
  constructor
  · intro stays key member before
    obtain ⟨other, _, same⟩ := mem_dependencies.1 stays
    by_contra holds
    exact curate_ne_of_earlier ascending (complete name known) member before
      (by simpa using holds) file.language other same
  · intro alone
    -- The target is not after the dependency, which contains itself, and not before it.
    have below : curate table.fileKeys file.language name ≤ name :=
      targetLeast name known (Text.occursIn_self _)
    have notBelow : ¬ curate table.fileKeys file.language name < name := by
      intro before
      rw [alone _ targetKnown before] at targetHolds
      exact absurd targetHolds (by decide)
    have same : curate table.fileKeys file.language name = name :=
      String.le_antisymm below (String.not_lt.1 notBelow)
    exact same ▸ targetListed

/-! ## A project inside a project -/

/-- A script of which only the key and the dependencies matter. -/
def scriptAt (key : String) (dependencies : List String) : FileRecord where
  key := key
  path := "/work/" ++ key
  fileName := ""
  moduleName := ""
  language := .script
  tokens := []
  source := ""
  dependencies := dependencies

/-- A project with a copy of one of its scripts at a path that repeats its own. -/
def nestedProject : RecordTable :=
  ((RecordTable.empty.insertFile (scriptAt "game/hud.gd" ["game/player.gd"])).insertFile
    (scriptAt "game/player.gd" [])).insertFile (scriptAt "game/addons/game/player.gd" [])

theorem known_dependency_stays_iff_nested :
    (∀ key ∈ nestedProject.fileKeys, namesFile key = true) ∧
      scriptAt "game/hud.gd" ["game/player.gd"] ∈ nestedProject.files ∧
      "game/player.gd" ∈ nestedProject.fileKeys ∧
      ∃ curated target, (curateTable nestedProject).file? "game/hud.gd" = some curated ∧
        (target ∈ curated.dependencies ∧ target ∈ nestedProject.fileKeys ∧
          Text.occursIn "game/player.gd".toList target.toList = true ∧
          ∀ key ∈ nestedProject.fileKeys,
            Text.occursIn "game/player.gd".toList key.toList = true → target ≤ key) ∧
        ("game/player.gd" ∈ curated.dependencies ↔
          ∀ key ∈ nestedProject.fileKeys, key < "game/player.gd" →
            Text.occursIn "game/player.gd".toList key.toList = false) := by
  have complete : ∀ key ∈ nestedProject.fileKeys, namesFile key = true := by decide +kernel
  have stored : scriptAt "game/hud.gd" ["game/player.gd"] ∈ nestedProject.files := by
    decide +kernel
  have known : "game/player.gd" ∈ nestedProject.fileKeys := by decide +kernel
  exact ⟨complete, stored, known,
    known_dependency_stays_iff complete stored (by decide) known⟩

/-- A dependency on a file need not stay: the copy contains its key and sorts before it. -/
theorem curateTable_drops_known_dependency :
    ¬ ∀ table : RecordTable, (∀ key ∈ table.fileKeys, namesFile key = true) →
      ∀ file ∈ table.files, ∀ name ∈ file.dependencies, name ∈ table.fileKeys →
        ∃ curated, (curateTable table).file? file.key = some curated ∧
          name ∈ curated.dependencies := by
  intro keeps
  obtain ⟨curated, found, stays⟩ := keeps nestedProject (by decide +kernel)
    (scriptAt "game/hud.gd" ["game/player.gd"]) (by decide +kernel) "game/player.gd" (by decide)
    (by decide +kernel)
  have rewritten : (curateTable nestedProject).file? "game/hud.gd" =
      some (scriptAt "game/hud.gd" ["game/addons/game/player.gd"]) := by decide +kernel
  obtain rfl : scriptAt "game/hud.gd" ["game/addons/game/player.gd"] = curated :=
    Option.some.inj (rewritten.symm.trans found)
  exact absurd stays (by decide)

end Curation

end GodotGraph
