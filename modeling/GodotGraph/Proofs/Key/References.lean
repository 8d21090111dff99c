import GodotGraph.Key
import GodotGraph.Proofs.Path
import Mathlib.Data.List.TakeWhile

/-!
Contract: the key of a file, whichever way the file is named.

Owns:
- walks over names, over climbs, and over segments that count for nothing;
- the key of a path below a source root, as the name of the root and the path from there;
- agreement of keys found on disk with rooted references and with references from any other
  file of the project.

Paths are compared by their components. How they are written, with repeated slashes or
inner dots, makes no difference.
-/

set_option autoImplicit false

namespace GodotGraph.Key

open GodotGraph.Path (IsName)
open Text (segments joinSegments)

/-! ## Walking -/

/-- The segment moves a walk. -/
def isStep (segment : String) : Bool :=
  segment ≠ "" && segment ≠ "."

theorem walk_cons_of_not_isStep (stack : List String) {segment : String}
    (idle : isStep segment = false) (rest : List String) :
    walk stack (segment :: rest) = walk stack rest := by
  have skipped : (segment = "" || segment = ".") = true := by
    simpa [isStep, or_iff_not_imp_left] using idle
  rw [walk.eq_def]
  simp only [skipped, if_true]

theorem walk_cons_of_isStep (stack : List String) {segment : String} (step : isStep segment = true)
    (notUp : segment ≠ "..") (rest : List String) :
    walk stack (segment :: rest) = walk (segment :: stack) rest := by
  have counts : (segment = "" || segment = ".") = false := by simpa [isStep] using step
  rw [walk.eq_def]
  simp [counts, notUp]

theorem walk_cons_up (name : String) (outer rest : List String) :
    walk (name :: outer) (".." :: rest) = walk outer rest :=
  rfl

theorem walk_filter_isStep (stack parts : List String) :
    walk stack (parts.filter isStep) = walk stack parts := by
  induction parts generalizing stack with
  | nil => rfl
  | cons segment rest inductionHypothesis =>
      cases step : isStep segment with
      | false =>
          rw [List.filter_cons_of_neg (by simp [step]), inductionHypothesis,
            walk_cons_of_not_isStep stack step]
      | true =>
          rw [List.filter_cons_of_pos step]
          by_cases up : segment = ".."
          · subst up
            cases stack with
            | nil => rfl
            | cons name outer => exact inductionHypothesis outer
          · rw [walk_cons_of_isStep stack step up, walk_cons_of_isStep stack step up,
              inductionHypothesis]

theorem isStep_of_isName {name : String} (isName : IsName name) : isStep name = true := by
  simp [isStep, isName.filled, isName.notHere]

/-- Names are put on the stack. -/
theorem walk_names (stack : List String) {names : List String} (areNames : ∀ name ∈ names, IsName name)
    (rest : List String) : walk stack (names ++ rest) = walk (names.reverse ++ stack) rest := by
  induction names generalizing stack with
  | nil => rfl
  | cons name others inductionHypothesis =>
      have isName := areNames name List.mem_cons_self
      rw [List.cons_append, walk_cons_of_isStep stack (isStep_of_isName isName) isName.notUp,
        inductionHypothesis (name :: stack) fun other member =>
          areNames other (List.mem_cons_of_mem _ member)]
      simp

/-- Climbs take names off the stack. -/
theorem walk_climb (left stack rest : List String) :
    walk (left ++ stack) (List.replicate left.length ".." ++ rest) = walk stack rest := by
  induction left with
  | nil => rfl
  | cons name others inductionHypothesis =>
      rw [List.length_cons, List.replicate_succ, List.cons_append, List.cons_append, walk_cons_up]
      exact inductionHypothesis

/-- A walk through names, up again and down through others. -/
theorem walk_detour {common climbed descent : List String}
    (areNames : ∀ name ∈ common ++ climbed, IsName name) (areOthers : ∀ name ∈ descent, IsName name) :
    walk [] ((common ++ climbed) ++ (List.replicate climbed.length ".." ++ descent)) =
      some (common ++ descent) := by
  have climbs := walk_climb climbed.reverse common.reverse descent
  rw [List.length_reverse] at climbs
  have descends := walk_names common.reverse areOthers []
  rw [List.append_nil] at descends
  rw [walk_names [] areNames, List.append_nil, List.reverse_append, climbs, descends]
  simp [walk]

/-! ## Keys of names -/

theorem normalize?_of_walk {path : String} {names : List String}
    (walked : walk [] ((segments path).filter isStep) = some names) :
    normalize? path = some (joinSegments names) := by
  rw [walk_filter_isStep] at walked
  rw [normalize?, walked]
  rfl

theorem inside?_joinSegments (rootName : String) {names : List String} (filled : names ≠ []) :
    inside? rootName (joinSegments (rootName :: names)) =
      some (joinSegments (rootName :: names)) := by
  have text : (joinSegments (rootName :: names)).toList =
      (rootName.toList ++ ['/']) ++ (joinSegments names).toList := by
    have split := Text.joinSegments_append (List.cons_ne_nil rootName []) filled
    rw [List.singleton_append] at split
    rw [split]
    simp [joinSegments]
  rw [inside?_eq_some_iff, isInside, text, List.isPrefixOf_iff_prefix]
  exact ⟨rfl, List.prefix_append _ _⟩

/-- A key up to its last slash names all segments but the last. -/
theorem directory_joinSegments (names : List String) {last : String} (clean : '/' ∉ last.toList) :
    directory (joinSegments (names ++ [last])) = joinSegments names := by
  have passes : ∀ c ∈ last.toList.reverse, decide (c ≠ '/') = true := by
    intro c member
    rw [decide_eq_true_eq]
    rintro rfl
    exact clean (List.mem_reverse.1 member)
  cases names with
  | nil =>
      have single : joinSegments ([] ++ [last]) = last := by simp [joinSegments]
      rw [single, directory, List.dropWhile_eq_nil_iff.2 passes]
      rfl
  | cons first others =>
      have text : (joinSegments (first :: others ++ [last])).toList.reverse =
          last.toList.reverse ++ '/' :: (joinSegments (first :: others)).toList.reverse := by
        rw [Text.joinSegments_append (by simp) (by simp)]
        simp [joinSegments]
      have stops : ('/' :: (joinSegments (first :: others)).toList.reverse).dropWhile
          (fun c => decide (c ≠ '/')) = '/' :: (joinSegments (first :: others)).toList.reverse := rfl
      rw [directory, text, List.dropWhile_append_of_pos passes, stops]
      simp

/-! ## Files below a root -/

/-- The names that a key below a root starts with: the last name of the root, if it has one. -/
def rootNames (root : String) : List String :=
  (Path.fileName? root).toList

theorem isName_of_mem_rootNames {root name : String} (member : name ∈ rootNames root) :
    IsName name := by
  have found : Path.fileName? root = some name := Option.mem_toList.1 member
  exact Path.isName_of_mem_components (List.mem_of_getLast? (Path.getLast?_components found))

section Below

variable {root path : String} {names : List String}

theorem isName_of_below (below : Path.below? root path = some (names.map .name)) :
    ∀ name ∈ names, IsName name := by
  intro name member
  have inPath : .name name ∈ Path.components path := by
    rw [Path.append_of_afterPart? below]
    exact List.mem_append_right _ (List.mem_map_of_mem member)
  exact Path.isName_of_mem_components inPath

/-- The key of a file below a root starts with the name of the root. -/
theorem ofPath?_of_below (below : Path.below? root path = some (names.map .name))
    (filled : names ≠ []) :
    ofPath? ((Path.parent? root).getD root) path = some (joinSegments (rootNames root ++ names)) := by
  have whole := Path.append_of_afterPart? below
  have steps : (Path.below? ((Path.parent? root).getD root) path).map
      (fun steps => steps.filterMap Path.Component.name?) = some (rootNames root ++ names) := by
    cases parent : Path.parent? root with
    | none =>
        have noName := Path.fileName?_of_parent?_eq_none parent
        rw [Option.getD_none, below, rootNames, noName, Option.map_some, Path.filterMap_name?]
        rfl
    | some above =>
        obtain ⟨last, shape⟩ := Path.components_parent? parent
        have ends : rootNames root = last.name?.toList := by
          rw [rootNames, Path.fileName?, shape]
          simp
        have belowAbove : Path.below? above path = some (last :: names.map .name) := by
          rw [Path.below?, whole, shape, List.append_assoc, Path.afterPart?_append]
          rfl
        rw [Option.getD_some, belowAbove, ends, Option.map_some]
        cases last with
        | name text =>
            have named : (Path.Component.name text).name? = some text := rfl
            rw [List.filterMap_cons_some named, Path.filterMap_name?]
            rfl
        | _ => rw [List.filterMap_cons_none rfl, Path.filterMap_name?]; rfl
  unfold ofPath?
  rw [steps]
  cases shape : rootNames root ++ names with
  | nil => exact absurd (List.append_eq_nil_iff.1 shape).2 filled
  | cons first others => rfl

end Below

/-! ## References -/

section References

variable {root : String} {names : List String}

/-- What a walk from the root finds is a key of the project. -/
theorem inside_of_walk {path : String} (filled : names ≠ [])
    (walked : walk [] ((segments path).filter isStep) = some (rootNames root ++ names)) :
    (if Path.fileName root = "" then normalize? path
      else (normalize? path).bind (inside? (Path.fileName root))) =
        some (joinSegments (rootNames root ++ names)) := by
  rw [normalize?_of_walk walked]
  split
  · rfl
  · next named =>
      cases found : Path.fileName? root with
      | none => simp [Path.fileName, found] at named
      | some name =>
          rw [rootNames, found, Path.fileName, found]
          exact inside?_joinSegments name filled

/-- What a relative reference comes to when it is put after its directory. -/
theorem segments_below_directory {directories : List String}
    (clean : ∀ name ∈ directories, IsName name) (literal : String) :
    (segments (if joinSegments directories = "" then literal
        else joinSegments directories ++ "/" ++ literal)).filter isStep =
      directories ++ (segments literal).filter isStep := by
  cases directories with
  | nil => rfl
  | cons first others =>
      have written : segments (joinSegments (first :: others)) = first :: others :=
        Text.segments_joinSegments (by simp) fun name member => (clean name member).clean
      have filled : joinSegments (first :: others) ≠ "" := by
        intro empty
        rw [empty, Path.segments_empty] at written
        exact (clean first List.mem_cons_self).filled (List.cons.inj written).1.symm
      have kept : (first :: others).filter isStep = first :: others :=
        List.filter_eq_self.2 fun name member => isStep_of_isName (clean name member)
      rw [if_neg filled, Text.segments_append_slash, List.filter_append, written, kept]

/-- A reference that climbs to a directory above a file and goes down from there is read as the
key of the file it ends at. -/
theorem ofRelative?_of_climb {common climbed descent : List String}
    (areNames : ∀ name ∈ common ++ climbed, IsName name)
    (areOthers : ∀ name ∈ common ++ descent, IsName name) (filled : common ++ descent ≠ [])
    {literal : String}
    (climbs : (segments literal).filter isStep =
      List.replicate climbed.length ".." ++ descent) :
    ofRelative? (Path.fileName root) (joinSegments (rootNames root ++ (common ++ climbed))) literal =
      some (joinSegments (rootNames root ++ (common ++ descent))) := by
  have inRoot : ∀ name ∈ rootNames root, IsName name := fun name member =>
    isName_of_mem_rootNames member
  have directories : ∀ name ∈ rootNames root ++ (common ++ climbed), IsName name := by
    intro name member
    exact (List.mem_append.1 member).elim (inRoot name) (areNames name)
  have descends : ∀ name ∈ descent, IsName name := fun name member =>
    areOthers name (List.mem_append_right _ member)
  have climbing : ∀ name ∈ (rootNames root ++ common) ++ climbed, IsName name := by
    rwa [List.append_assoc]
  have detour := walk_detour climbing descends
  refine inside_of_walk filled ?_
  rw [segments_below_directory directories, climbs]
  simpa only [List.append_assoc] using detour

/-- A rooted reference is one that is relative to the root directory. -/
theorem ofRooted?_eq_ofRelative? (rootName path : String) :
    ofRooted? rootName path = ofRelative? rootName rootName path := by
  unfold ofRooted? ofRelative?
  split <;> rfl

theorem joinSegments_rootNames (root : String) :
    joinSegments (rootNames root) = Path.fileName root := by
  rw [rootNames, Path.fileName]
  cases Path.fileName? root <;> simp [joinSegments]

/-- The rooted reference to a file is read as the key of the file. -/
theorem ofRooted?_joinSegments (areNames : ∀ name ∈ names, IsName name) (filled : names ≠ []) :
    ofRooted? (Path.fileName root) (joinSegments names) =
      some (joinSegments (rootNames root ++ names)) := by
  have written : (segments (joinSegments names)).filter isStep = names := by
    rw [Text.segments_joinSegments filled fun name member => (areNames name member).clean]
    exact List.filter_eq_self.2 fun name member => isStep_of_isName (areNames name member)
  have straight := @ofRelative?_of_climb root [] [] names (by simp) areNames filled _ written
  rw [List.append_nil, List.append_nil, joinSegments_rootNames] at straight
  rw [ofRooted?_eq_ofRelative?, straight]
  rfl

/-- The key of a file below a source root is what a rooted reference to it is read as, and what
any other file of the project reads a relative reference as that climbs to a directory above
both and goes down from there, with empty segments and dots anywhere. -/
theorem references_agree {first second : String} {toFirst toSecond : List String}
    (firstBelow : Path.below? root first = some (toFirst.map .name)) (firstFilled : toFirst ≠ [])
    (secondBelow : Path.below? root second = some (toSecond.map .name))
    (secondFilled : toSecond ≠ []) :
    ∃ firstKey secondKey,
      ofPath? ((Path.parent? root).getD root) first = some firstKey ∧
        ofPath? ((Path.parent? root).getD root) second = some secondKey ∧
          ofRooted? (Path.fileName root) (joinSegments toSecond) = some secondKey ∧
            ∀ (common climbed descent : List String) (literal : String),
              toFirst.dropLast = common ++ climbed → toSecond = common ++ descent →
              (segments literal).filter isStep = List.replicate climbed.length ".." ++ descent →
              ofRelative? (Path.fileName root) (directory firstKey) literal = some secondKey := by
  have firstNames := isName_of_below firstBelow
  have secondNames := isName_of_below secondBelow
  refine ⟨_, _, ofPath?_of_below firstBelow firstFilled, ofPath?_of_below secondBelow secondFilled,
    ofRooted?_joinSegments secondNames secondFilled, ?_⟩
  intro common climbed descent literal aboveFirst aboveSecond climbs
  have lastClean : '/' ∉ (toFirst.getLast firstFilled).toList :=
    (firstNames _ (List.getLast_mem firstFilled)).clean
  have here : directory (joinSegments (rootNames root ++ toFirst)) =
      joinSegments (rootNames root ++ (common ++ climbed)) := by
    rw [← aboveFirst, ← directory_joinSegments (rootNames root ++ toFirst.dropLast) lastClean,
      List.append_assoc, List.dropLast_append_getLast]
  rw [here, aboveSecond]
  refine ofRelative?_of_climb ?_ (by rwa [← aboveSecond]) (by rwa [← aboveSecond]) climbs
  intro name member
  rw [← aboveFirst] at member
  exact firstNames name ((List.dropLast_prefix toFirst).subset member)

/-- Two files in different directories of a project. The reference climbs, stays where it is for
a dot and an empty segment, and goes down. -/
theorem references_agree_cousins :
    ofPath? "/work" "/work/game/ui/menu/start.gd" = some "game/ui/menu/start.gd" ∧
      ofPath? "/work" "/work//game/./ui/hud.gd" = some "game/ui/hud.gd" ∧
        ofRooted? "game" "ui/hud.gd" = some "game/ui/hud.gd" ∧
          ofRelative? "game" (directory "game/ui/menu/start.gd") ".././/hud.gd" =
            some "game/ui/hud.gd" := by
  have firstBelow : Path.below? "/work/game" "/work/game/ui/menu/start.gd" =
      some (["ui", "menu", "start.gd"].map .name) := by decide +kernel
  have secondBelow : Path.below? "/work/game" "/work//game/./ui/hud.gd" =
      some (["ui", "hud.gd"].map .name) := by decide +kernel
  obtain ⟨firstKey, secondKey, firstFound, secondFound, rooted, relative⟩ :=
    references_agree firstBelow (by decide) secondBelow (by decide)
  have base : (Path.parent? "/work/game").getD "/work/game" = "/work" := by decide +kernel
  have rootName : Path.fileName "/work/game" = "game" := by decide +kernel
  have written : joinSegments ["ui", "hud.gd"] = "ui/hud.gd" := by decide +kernel
  have climbs := relative ["ui"] ["menu"] ["hud.gd"] ".././/hud.gd" (by decide) (by decide)
    (by decide +kernel)
  rw [base] at firstFound secondFound
  rw [rootName] at rooted climbs
  rw [written] at rooted
  obtain rfl : "game/ui/menu/start.gd" = firstKey :=
    Option.some.inj (Eq.trans (by decide +kernel) firstFound)
  obtain rfl : "game/ui/hud.gd" = secondKey :=
    Option.some.inj (Eq.trans (by decide +kernel) secondFound)
  exact ⟨firstFound, secondFound, rooted, climbs⟩

end References

end GodotGraph.Key
