import GodotGraph.Discovery
import GodotGraph.Proofs.FileTree.Listing
import Mathlib.Data.List.Nodup

/-!
Contract: which sources are found below a root.

Owns:
- the files that a walk comes upon, by what is asked of each of them;
- the paths of these files, and their order;
- the sources that are found for some settings, which are files of the tree itself where links are
  left alone.

Does not own: what a walk tells of directories that cannot be entered, and reading sources.

A walk asks at each name on a way whether to go on, and sees only the names up to there. So a file
is missed exactly if some front of its names is left out.
-/

set_option autoImplicit false

namespace GodotGraph

open FileTree (Listing pathOf)
open Text (joinSegments)

namespace Discovery

/-! ## Walks -/

section Walk

variable {rule : Rule}

/-- The files that a walk comes upon. -/
def filesBelow (rule : Rule) (above : List String) (listing : Listing) : List (List String) :=
  (sights rule above listing).filterMap Sight.file?

theorem filesBelow_file (above : List String) : filesBelow rule above .file = [above] := rfl

theorem filesBelow_other (above : List String) : filesBelow rule above .other = [] := rfl

theorem filesBelow_fault (above : List String) (message : String) :
    filesBelow rule above (.fault message) = [] := rfl

theorem filterMap_entrySights (above : List String) (entries : List (String × Listing)) :
    (entrySights rule above entries).filterMap Sight.file? = entries.flatMap fun entry =>
      if rule.excluded (above ++ [entry.1]) then []
      else filesBelow rule (above ++ [entry.1]) entry.2 := by
  induction entries with
  | nil => rw [entrySights, List.filterMap_nil, List.flatMap_nil]
  | cons entry rest inductionHypothesis =>
      obtain ⟨name, listing⟩ := entry
      rw [List.flatMap_cons, ← inductionHypothesis]
      cases listing with
      | fault message =>
          have none : (Sight.fault (above ++ [name]) message).file? = Option.none := rfl
          rw [entrySights, List.filterMap_cons_none none, filesBelow_fault, ite_self,
            List.nil_append]
      | file | other | directory entries =>
          rw [entrySights, List.filterMap_append]
          · split
            · rfl
            · rfl
          · exact fun _ same => nomatch same

theorem filesBelow_directory (above : List String) (entries : List (String × Listing)) :
    filesBelow rule above (.directory entries) =
      if isDeepest rule.maxDepth above then []
      else entries.flatMap fun entry =>
        if rule.excluded (above ++ [entry.1]) then []
        else filesBelow rule (above ++ [entry.1]) entry.2 := by
  rw [filesBelow, sights]
  split
  · rfl
  · exact filterMap_entrySights above entries

theorem mem_filesBelow_directory_iff {above found : List String}
    {entries : List (String × Listing)} :
    found ∈ filesBelow rule above (.directory entries) ↔
      isDeepest rule.maxDepth above = false ∧ ∃ entry ∈ entries,
        rule.excluded (above ++ [entry.1]) = false ∧
          found ∈ filesBelow rule (above ++ [entry.1]) entry.2 := by
  rw [filesBelow_directory]
  cases isDeepest rule.maxDepth above with
  | true => simp
  | false =>
      rw [if_neg Bool.false_ne_true, List.mem_flatMap, eq_self, true_and]
      apply exists_congr
      intro entry
      cases rule.excluded (above ++ [entry.1]) <;> simp

/-- What a walk asks of a file that is some names below the place where it is. -/
structure Reached (rule : Rule) (above : List String) (listing : Listing) (names : List String) :
    Prop where
  isFile : listing.at? names = some .file
  /-- The place where the walk is has been reached already. -/
  depth : names ≠ [] → ∀ limit, rule.maxDepth = some limit → (above ++ names).length ≤ limit
  kept : ∀ front, front ≠ [] → front <+: names → rule.excluded (above ++ front) = false

theorem isDeepest_eq_false_iff {maxDepth : Option Nat} {names : List String} :
    isDeepest maxDepth names = false ↔ ∀ limit, maxDepth = some limit → names.length < limit := by
  cases maxDepth <;> simp [isDeepest]

/-- One step of a walk into a directory. -/
theorem reached_cons_iff {above : List String} {entries : List (String × Listing)} {name : String}
    {names : List String} :
    Reached rule above (.directory entries) (name :: names) ↔
      isDeepest rule.maxDepth above = false ∧ rule.excluded (above ++ [name]) = false ∧
        ∃ below, entries.lookup name = some below ∧ Reached rule (above ++ [name]) below names := by
  have shift : above ++ name :: names = above ++ [name] ++ names := List.append_cons ..
  constructor
  · intro reached
    refine ⟨?depth, ?kept, ?below⟩
    case depth =>
      refine isDeepest_eq_false_iff.2 fun limit isLimit => ?_
      have bound := reached.depth (by simp) limit isLimit
      rw [List.length_append, List.length_cons] at bound
      omega
    case kept => exact reached.kept [name] (by simp) ⟨names, rfl⟩
    case below =>
      have isFile := reached.isFile
      rw [Listing.at?, Listing.entry?] at isFile
      obtain ⟨below, held, atNames⟩ := Option.bind_eq_some_iff.1 isFile
      refine ⟨below, held, atNames, fun _ => ?_, fun front _ isFront => ?_⟩
      · rw [← shift]
        exact reached.depth (by simp)
      · rw [← List.append_cons]
        exact reached.kept (name :: front) (by simp) (List.cons_prefix_cons.2 ⟨rfl, isFront⟩)
  · rintro ⟨notDeepest, nameKept, below, held, reached⟩
    refine ⟨?isFile, ?depth, ?kept⟩
    case isFile =>
      rw [Listing.at?, Listing.entry?, held]
      exact reached.isFile
    case depth =>
      intro _ limit isLimit
      cases names with
      | nil =>
          have bound := isDeepest_eq_false_iff.1 notDeepest limit isLimit
          rw [List.length_append, List.length_singleton]
          omega
      | cons next rest =>
          rw [shift]
          exact reached.depth (by simp) limit isLimit
    case kept =>
      intro front filled isFront
      rcases List.prefix_cons_iff.1 isFront with rfl | ⟨later, rfl, isLater⟩
      · exact absurd rfl filled
      · rw [List.append_cons]
        by_cases last : later = []
        · rw [last, List.append_nil]
          exact nameKept
        · exact reached.kept later last isLater

theorem mem_filesBelow_iff {listing : Listing} (orderly : listing.Orderly)
    {above found : List String} :
    found ∈ filesBelow rule above listing ↔
      ∃ names, found = above ++ names ∧ Reached rule above listing names := by
  induction orderly generalizing above with
  | file =>
      have here : Reached rule above .file [] :=
        ⟨rfl, fun filled => absurd rfl filled,
          fun front filled isFront => absurd (List.prefix_nil.1 isFront) filled⟩
      rw [filesBelow_file, List.mem_singleton]
      constructor
      · rintro rfl
        exact ⟨[], (List.append_nil _).symm, here⟩
      · rintro ⟨names, rfl, reached⟩
        cases names with
        | nil => exact List.append_nil above
        | cons => cases reached.isFile
  | other =>
      rw [filesBelow_other, iff_false_left List.not_mem_nil]
      rintro ⟨names, -, reached⟩
      cases names <;> cases reached.isFile
  | fault =>
      rw [filesBelow_fault, iff_false_left List.not_mem_nil]
      rintro ⟨names, -, reached⟩
      cases names <;> cases reached.isFile
  | @directory entries names below inductionHypothesis =>
      rw [mem_filesBelow_directory_iff]
      constructor
      · rintro ⟨notDeepest, ⟨name, listing⟩, isEntry, kept, member⟩
        obtain ⟨rest, rfl, reached⟩ := (inductionHypothesis _ isEntry).1 member
        have held := (FileTree.lookup_eq_some_iff_mem names.distinct).2 isEntry
        refine ⟨name :: rest, (List.append_cons ..).symm, ?_⟩
        exact reached_cons_iff.2 ⟨notDeepest, kept, listing, held, reached⟩
      · rintro ⟨path, rfl, reached⟩
        cases path with
        | nil => cases reached.isFile
        | cons name rest =>
            obtain ⟨notDeepest, kept, listing, held, later⟩ := reached_cons_iff.1 reached
            have isEntry := (FileTree.lookup_eq_some_iff_mem names.distinct).1 held
            have member := (inductionHypothesis _ isEntry).2 ⟨rest, List.append_cons .., later⟩
            exact ⟨notDeepest, (name, listing), isEntry, kept, member⟩

theorem nodup_filesBelow {listing : Listing} (orderly : listing.Orderly) (above : List String) :
    (filesBelow rule above listing).Nodup := by
  induction orderly generalizing above with
  | file => exact List.nodup_singleton above
  | other => exact List.nodup_nil
  | fault => exact List.nodup_nil
  | @directory entries names below inductionHypothesis =>
      rw [filesBelow_directory]
      split
      · exact List.nodup_nil
      · apply List.nodup_flatMap.2
        constructor
        · intro entry isEntry
          split
          · exact List.nodup_nil
          · exact inductionHypothesis entry isEntry _
        · have distinct : entries.Pairwise fun former latter => former.1 ≠ latter.1 :=
            List.pairwise_map.1 names.distinct
          apply distinct.imp_of_mem
          intro former latter isFormer isLatter other found inFormer inLatter
          -- Both names would stand at the same place on the way to one file.
          dsimp only at inFormer inLatter
          split at inFormer
          · cases inFormer
          · split at inLatter
            · cases inLatter
            · obtain ⟨_, shape, -⟩ := (mem_filesBelow_iff (below former isFormer)).1 inFormer
              obtain ⟨_, same, -⟩ := (mem_filesBelow_iff (below latter isLatter)).1 inLatter
              rw [shape, ← List.append_cons, ← List.append_cons] at same
              exact other (List.cons.inj (List.append_cancel_left same)).1

end Walk

/-! ## Paths -/

theorem pathOf_eq_write (place : List String) : pathOf place = Path.write true place := rfl

theorem pathBelow_pathOf {place names : List String}
    (onWay : ∀ name ∈ place ++ names, Path.IsName name) :
    pathBelow (pathOf place) names = pathOf (place ++ names) := by
  induction names generalizing place with
  | nil => rw [List.append_nil]; rfl
  | cons name names inductionHypothesis =>
      have placeNames : ∀ name ∈ place, Path.IsName name :=
        fun name member => onWay name (List.mem_append_left _ member)
      have next : Path.join (pathOf place) name = pathOf (place ++ [name]) :=
        Path.join_write placeNames name
      rw [List.append_cons] at onWay ⊢
      rw [← inductionHypothesis onWay, ← next]
      rfl

theorem extension?_pathOf {place names : List String} (filled : names ≠ [])
    (onWay : ∀ name ∈ place ++ names, Path.IsName name) :
    Path.extension? (pathOf (place ++ names)) = Path.extension? (joinSegments names) := by
  have namesOnWay : ∀ name ∈ names, Path.IsName name :=
    fun name member => onWay name (List.mem_append_right place member)
  have relative : joinSegments names = Path.write false names := by simp [Path.write]
  rw [Path.extension?, Path.extension?, pathOf_eq_write, relative, Path.fileName?_write onWay,
    Path.fileName?_write namesOnWay, List.getLast?_append_of_ne_nil _ filled]

theorem isWanted_iff (settings : Settings) (path : String) :
    isWanted settings path = true ↔ Path.extension? path = some "gd" ∨
      settings.includeScenes = true ∧
        (Path.extension? path = some "tscn" ∨ Path.extension? path = some "tres") := by
  unfold isWanted Language.ofPath?
  cases Path.extension? path with
  | none => simp
  | some extension =>
      by_cases script : extension = "gd"
      · simp [script, Language.ofExtension?]
      · by_cases scene : extension = "tscn" ∨ extension = "tres"
        · simp [script, scene, Language.ofExtension?]
        · simp [script, scene, Language.ofExtension?]

/-! ## Order -/

/-- The first way comes before the second, name by name. -/
def Precedes (former latter : List String) : Prop :=
  List.Lex (fun first second => first < second) former latter

/-- The second way does not come before the first. This is what sources are sorted by. -/
def isOrdered (former latter : List String) : Bool :=
  !latter.lex former fun first second => first < second

theorem isOrdered_iff {former latter : List String} :
    isOrdered former latter = true ↔ ¬ Precedes latter former := by
  rw [isOrdered, Bool.not_eq_true', Bool.eq_false_iff, ne_eq, List.lex_eq_true_iff_lt, Precedes,
    List.lex_lt]

theorem isOrdered_trans (first second third : List String)
    (former : isOrdered first second = true) (latter : isOrdered second third = true) :
    isOrdered first third = true := by
  rw [isOrdered_iff, Precedes, List.lex_lt, List.not_lt] at former latter ⊢
  exact List.le_trans former latter

theorem isOrdered_total (first second : List String) :
    (isOrdered first second || isOrdered second first) = true := by
  rw [Bool.or_eq_true, isOrdered_iff, isOrdered_iff, Precedes, Precedes, List.lex_lt, List.lex_lt,
    List.not_lt, List.not_lt]
  exact List.le_total ..

theorem precedes_of_isOrdered {former latter : List String}
    (ordered : isOrdered former latter = true) (other : former ≠ latter) :
    Precedes former latter := by
  by_contra notBefore
  rw [isOrdered_iff, Precedes, List.lex_lt, List.not_lt] at ordered
  rw [Precedes, List.lex_lt, List.not_lt] at notBefore
  exact other (List.le_antisymm ordered notBefore)

/-- There is only one way to sort names. -/
theorem mergeSort_eq_of_perm {names sorted : List (List String)} (same : names.Perm sorted)
    (ordered : sorted.Pairwise fun former latter => isOrdered former latter = true) :
    names.mergeSort isOrdered = sorted := by
  apply List.Perm.eq_of_pairwise ?antisymmetric ?merged ordered
    ((List.mergeSort_perm names isOrdered).trans same)
  case antisymmetric =>
    intro former latter _ _ before after
    by_contra other
    exact isOrdered_iff.1 after (precedes_of_isOrdered before other)
  case merged => exact List.pairwise_mergeSort isOrdered_trans isOrdered_total names

theorem not_precedes_self (names : List String) : ¬ Precedes names names := by
  rw [Precedes, List.lex_lt]
  exact List.lt_irrefl names

theorem Precedes.append_left {former latter : List String} (before : Precedes former latter)
    (place : List String) : Precedes (place ++ former) (place ++ latter) := by
  rw [Precedes, List.lex_lt] at before ⊢
  exact List.append_left_lt before

/-! ## Sources -/

section Wanted

variable {rule : Rule} {listing : Listing} (orderly : listing.Orderly)

include orderly

theorem mem_wantedFiles_iff {names : List String} :
    names ∈ wantedFiles rule listing ↔
      Reached rule [] listing names ∧ rule.wanted (joinSegments names) = true := by
  rw [wantedFiles, List.mem_mergeSort, List.mem_filter]
  refine and_congr_left fun _ => (mem_filesBelow_iff orderly).trans ⟨?_, ?_⟩
  · rintro ⟨found, rfl, reached⟩
    exact reached
  · exact fun reached => ⟨names, rfl, reached⟩

theorem pairwise_wantedFiles : (wantedFiles rule listing).Pairwise Precedes := by
  have sorted : (wantedFiles rule listing).Pairwise fun former latter =>
      isOrdered former latter = true :=
    @List.pairwise_mergeSort _ isOrdered isOrdered_trans isOrdered_total _
  have distinct : (wantedFiles rule listing).Nodup :=
    (List.mergeSort_perm _ _).nodup_iff.2 ((nodup_filesBelow orderly []).filter _)
  exact sorted.imp₂ (fun _ _ => precedes_of_isOrdered) distinct

end Wanted

/-- What the settings ask of the names of a file below the place of the root. -/
structure Admitted (settings : Settings) (exclusion : Exclusion) (place names : List String) :
    Prop where
  depth : ∀ limit, settings.maxDepth = some limit → names.length ≤ limit
  /-- No front of its names is left out, nor are all of them together. -/
  kept : ∀ front, front ≠ [] → front <+: names → exclusion.covers (joinSegments front) = false
  extension : Path.extension? (pathOf (place ++ names)) = some "gd" ∨
    settings.includeScenes = true ∧
      (Path.extension? (pathOf (place ++ names)) = some "tscn" ∨
        Path.extension? (pathOf (place ++ names)) = some "tres")

/-- A file with some names below the place of the root that the settings ask for. -/
structure Wanted (tree : FileTree) (settings : Settings) (exclusion : Exclusion)
    (place names : List String) : Prop extends Admitted settings exclusion place names where
  /-- A walk sees a file there, through links if the settings say so. -/
  isFile : (tree.listingAt settings.followLinks place).at? names = some .file

/-- Where links are left alone, the files that a walk sees are those of the tree. -/
theorem wanted_iff_of_links_ignored {tree : FileTree} {settings : Settings} {exclusion : Exclusion}
    {place names : List String} (ignored : settings.followLinks = false) :
    Wanted tree settings exclusion place names ↔
      (∃ content, tree.root.at? (place ++ names) = some (.file content)) ∧
        Admitted settings exclusion place names := by
  rw [← FileTree.at?_listingAt_false_iff, ← ignored]
  exact ⟨fun wanted => ⟨wanted.isFile, wanted.toAdmitted⟩,
    fun ⟨isFile, admitted⟩ => ⟨admitted, isFile⟩⟩

/-- The files are exactly the wanted ones, each of them once and in the order of their names. -/
structure ListsWanted (tree : FileTree) (settings : Settings) (exclusion : Exclusion)
    (place : List String) (files : List String) : Prop where
  sorted : files.Pairwise fun former latter => Precedes (Path.names former) (Path.names latter)
  distinct : files.Nodup
  members : ∀ path, path ∈ files ↔
    ∃ names, path = pathOf (place ++ names) ∧ Wanted tree settings exclusion place names

theorem exists_directory_of_rootPlace {tree : FileTree} {settings : Settings} {place : List String}
    (rooted : rootPlace tree settings = .ok place) :
    ∃ entries, tree.root.at? place = some (.directory entries) := by
  unfold rootPlace at rooted
  split at rooted
  · next isDirectory found =>
      cases rooted
      rw [FileTree.isDirectory, FileTree.node?, found] at isDirectory
      cases held : tree.root.at? place with
      | none => simp [held, bind, Except.bind] at isDirectory
      | some node =>
          cases node with
          | directory entries => exact ⟨entries, rfl⟩
          | file | link => simp [held, bind, Except.bind] at isDirectory
  · cases rooted

/-- The names on the ways to all files that are found. -/
def wantedNames (tree : FileTree) (settings : Settings) (exclusion : Exclusion)
    (place : List String) : List (List String) :=
  wantedFiles (ruleOf settings exclusion) (tree.listingAt settings.followLinks place)

theorem find_eq {tree : FileTree} {settings : Settings} {place : List String}
    {exclusion : Exclusion} (rooted : rootPlace tree settings = .ok place)
    (valid : Exclusion.ofPatterns settings.exclude = .ok exclusion) :
    find tree settings = .ok
      ⟨(wantedNames tree settings exclusion place).map (pathBelow (pathOf place)),
        ((sights (ruleOf settings exclusion) []
          (tree.listingAt settings.followLinks place)).filterMap Sight.fault?).map
            (entryProblem (pathOf place))⟩ := by
  rw [find, rooted, valid]
  rfl

section Find

variable {tree : FileTree} {settings : Settings} {place : List String} {exclusion : Exclusion}
  (rooted : rootPlace tree settings = .ok place) (orderly : tree.root.Orderly)

include rooted

theorem ne_nil_of_isFile {names : List String}
    (isFile : (tree.listingAt settings.followLinks place).at? names = some .file) : names ≠ [] := by
  obtain ⟨entries, isThere⟩ := exists_directory_of_rootPlace rooted
  obtain ⟨listings, seen⟩ :=
    FileTree.exists_listingAt_eq_directory isThere settings.followLinks
  rintro rfl
  rw [seen] at isFile
  cases isFile

include orderly

theorem isName_of_isFile {names : List String}
    (isFile : (tree.listingAt settings.followLinks place).at? names = some .file) :
    ∀ name ∈ place ++ names, Path.IsName name := by
  obtain ⟨entries, isThere⟩ := exists_directory_of_rootPlace rooted
  have placeNames := (orderly.of_at? isThere).2
  have namesOnWay := (FileTree.orderly_listingAt orderly _ place).isName_of_at? isFile
  exact List.forall_mem_append.2 ⟨placeNames, namesOnWay⟩

theorem mem_wantedNames_iff {names : List String} :
    names ∈ wantedNames tree settings exclusion place ↔
      Wanted tree settings exclusion place names := by
  rw [wantedNames,
    mem_wantedFiles_iff (FileTree.orderly_listingAt orderly settings.followLinks place)]
  constructor
  · rintro ⟨reached, wanted⟩
    have filled := ne_nil_of_isFile rooted reached.isFile
    refine ⟨⟨reached.depth filled, reached.kept, ?extension⟩, reached.isFile⟩
    case extension =>
      rw [extension?_pathOf filled (isName_of_isFile rooted orderly reached.isFile)]
      exact (isWanted_iff settings _).1 wanted
  · intro wanted
    have filled := ne_nil_of_isFile rooted wanted.isFile
    refine ⟨⟨wanted.isFile, fun _ => wanted.depth, wanted.kept⟩, (isWanted_iff settings _).2 ?_⟩
    rw [← extension?_pathOf filled (isName_of_isFile rooted orderly wanted.isFile)]
    exact wanted.extension

theorem map_pathBelow_wantedNames :
    (wantedNames tree settings exclusion place).map (pathBelow (pathOf place)) =
      (wantedNames tree settings exclusion place).map fun names => pathOf (place ++ names) := by
  apply List.map_congr_left
  intro names member
  have wanted := (mem_wantedNames_iff rooted orderly).1 member
  exact pathBelow_pathOf (isName_of_isFile rooted orderly wanted.isFile)

theorem pairwise_map_pathOf :
    ((wantedNames tree settings exclusion place).map fun names => pathOf (place ++ names)).Pairwise
      fun former latter => Precedes (Path.names former) (Path.names latter) := by
  have listed : (wantedNames tree settings exclusion place).Pairwise Precedes :=
    pairwise_wantedFiles (FileTree.orderly_listingAt orderly settings.followLinks place)
  apply List.pairwise_map.2
  apply listed.imp_of_mem
  intro former latter isFormer isLatter before
  have formerWanted := (mem_wantedNames_iff rooted orderly).1 isFormer
  have latterWanted := (mem_wantedNames_iff rooted orderly).1 isLatter
  have formerNames := isName_of_isFile rooted orderly formerWanted.isFile
  have latterNames := isName_of_isFile rooted orderly latterWanted.isFile
  rw [pathOf_eq_write, pathOf_eq_write, Path.names_write formerNames, Path.names_write latterNames]
  exact before.append_left place

theorem listsWanted_wantedNames :
    ListsWanted tree settings exclusion place
      ((wantedNames tree settings exclusion place).map (pathBelow (pathOf place))) := by
  rw [map_pathBelow_wantedNames rooted orderly]
  have sorted := @pairwise_map_pathOf _ _ _ exclusion rooted orderly
  refine ⟨sorted, ?distinct, ?members⟩
  case distinct =>
    apply sorted.imp
    rintro former latter before rfl
    exact not_precedes_self _ before
  case members =>
    intro path
    rw [List.mem_map]
    apply exists_congr
    intro names
    rw [mem_wantedNames_iff rooted orderly, eq_comm, and_comm]

/-- Where links are left alone, exactly the admitted files of the tree itself are found. -/
theorem mem_files_iff_of_links_ignored
    (valid : Exclusion.ofPatterns settings.exclude = .ok exclusion)
    (ignored : settings.followLinks = false) {discovery : Discovery}
    (found : find tree settings = .ok discovery) {path : String} :
    path ∈ discovery.files ↔
      ∃ names content, path = pathOf (place ++ names) ∧
        tree.root.at? (place ++ names) = some (.file content) ∧
          Admitted settings exclusion place names := by
  rw [find_eq rooted valid] at found
  obtain rfl := Except.ok.inj found
  dsimp only
  rw [(listsWanted_wantedNames rooted orderly).members]
  apply exists_congr
  intro names
  rw [wanted_iff_of_links_ignored ignored, exists_and_left, exists_and_right]

/-- Below a root that can be walked through, with patterns that can be read, exactly the wanted
files are found. -/
theorem find_listsWanted (valid : Exclusion.ofPatterns settings.exclude = .ok exclusion) :
    ∃ discovery, find tree settings = .ok discovery ∧
      ListsWanted tree settings exclusion place discovery.files :=
  ⟨_, find_eq rooted valid, listsWanted_wantedNames rooted orderly⟩

end Find

/-- A game with a directory of add-ons. -/
def gameTree : FileTree where
  root := .directory [("game", .directory [
    ("player.gd", .file (.text "")),
    ("notes.txt", .file (.text "")),
    ("addons", .directory [("tool.gd", .file (.text ""))]),
    ("level.tscn", .link "player.gd"),
    ("enemies", .directory [
      ("bat.gd", .file (.text "")),
      ("caves", .directory [("worm.gd", .file (.text ""))])])])]
  here := []

def gameSettings : Settings :=
  { Settings.standard with sourcePath := "game", exclude := ["addons"], maxDepth := some 2 }

def gameExclusion : Exclusion := ⟨[⟨"addons".toList.map .char⟩]⟩

theorem wantedNames_game :
    wantedNames gameTree gameSettings gameExclusion ["game"] =
      [["enemies", "bat.gd"], ["player.gd"]] := by
  have walked : (filesBelow (ruleOf gameSettings gameExclusion) []
      (gameTree.listingAt gameSettings.followLinks ["game"])).filter
        (fun names => (ruleOf gameSettings gameExclusion).wanted (joinSegments names)) =
      [["player.gd"], ["enemies", "bat.gd"]] := by
    decide +kernel
  apply mergeSort_eq_of_perm
  · exact walked ▸ List.Perm.swap ..
  · decide +kernel

theorem find_listsWanted_game :
    rootPlace gameTree gameSettings = .ok ["game"] ∧ gameTree.root.Orderly ∧
      Exclusion.ofPatterns gameSettings.exclude = .ok gameExclusion ∧
      find gameTree gameSettings = .ok ⟨["/game/enemies/bat.gd", "/game/player.gd"], []⟩ ∧
      ListsWanted gameTree gameSettings gameExclusion ["game"]
        ["/game/enemies/bat.gd", "/game/player.gd"] := by
  have rooted : rootPlace gameTree gameSettings = .ok ["game"] := by rfl
  have valid : Exclusion.ofPatterns gameSettings.exclude = .ok gameExclusion := by rfl
  have orderly : gameTree.root.Orderly := by
    apply FileTree.Node.Orderly.directory (by decide)
    simp +decide [FileTree.Node.orderly_directory_iff]
  have found : find gameTree gameSettings =
      .ok ⟨["/game/enemies/bat.gd", "/game/player.gd"], []⟩ := by
    rw [find_eq rooted valid, wantedNames_game]
    decide +kernel
  obtain ⟨discovery, isFound, lists⟩ := find_listsWanted rooted orderly valid
  obtain rfl := Except.ok.inj (found.symm.trans isFound)
  exact ⟨rooted, orderly, valid, found, lists⟩

end Discovery

end GodotGraph
