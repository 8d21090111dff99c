import GodotGraph.Proofs.Key.References
import GodotGraph.Reference

/-!
Contract: references stay inside the project.

Owns:
- the names that the segments of a path collapse to, by rules that speak of segments alone;
- paths that climb above their start, by counting;
- keys strictly below a root directory, which the text of the key shows;
- the references that have a key, and what becomes of those that have none.

Does not own: which file a key names.

A walk goes through the segments from the left and may fail. The rules for collapsing may be used
anywhere and in any order. They agree with the walk, so they never lead to two lists of names.
-/

set_option autoImplicit false

namespace GodotGraph.Key

open GodotGraph.Path (IsName)
open Text (segments joinSegments)

/-! ## Collapsing -/

/-- The segments come down to the names. An empty segment or a dot is left out, and a name goes
together with the double dot behind it. -/
inductive CollapsesTo : List String → List String → Prop where
  | names {names : List String} (areNames : ∀ name ∈ names, IsName name) : CollapsesTo names names
  | idle {segment : String} {before after names : List String}
      (idle : segment = "" ∨ segment = ".") (later : CollapsesTo (before ++ after) names) :
      CollapsesTo (before ++ segment :: after) names
  | up {name : String} {before after names : List String} (isName : IsName name)
      (later : CollapsesTo (before ++ after) names) :
      CollapsesTo (before ++ name :: ".." :: after) names

/-- The segment leads into a directory. -/
def goesDown (segment : String) : Bool :=
  isStep segment && segment ≠ ".."

/-- Some front of the segments leads up more often than down. -/
def ClimbsOut (parts : List String) : Prop :=
  ∃ front, front <+: parts ∧ front.countP goesDown < front.count ".."

theorem not_isStep_of_idle {segment : String} (idle : segment = "" ∨ segment = ".") :
    isStep segment = false := by
  rcases idle with rfl | rfl <;> rfl

theorem segment_cases (segment : String) :
    (segment = "" ∨ segment = ".") ∨ segment = ".." ∨ goesDown segment = true := by
  by_cases up : segment = ".."
  · exact Or.inr (Or.inl up)
  · by_cases idle : segment = "" ∨ segment = "."
    · exact Or.inl idle
    · exact Or.inr (Or.inr (by simpa [goesDown, isStep, up] using idle))

theorem walk_cons_of_goesDown (stack : List String) {segment : String}
    (down : goesDown segment = true) (rest : List String) :
    walk stack (segment :: rest) = walk (segment :: stack) rest := by
  obtain ⟨step, notUp⟩ : isStep segment = true ∧ segment ≠ ".." := by simpa [goesDown] using down
  exact walk_cons_of_isStep stack step notUp rest

/-- A walk goes on from the names that it has come to. -/
theorem walk_append (stack first second : List String) :
    walk stack (first ++ second) =
      (walk stack first).bind fun names => walk names.reverse second := by
  induction first generalizing stack with
  | nil => simp [walk]
  | cons segment rest inductionHypothesis =>
      rw [List.cons_append]
      rcases segment_cases segment with idle | rfl | down
      · rw [walk_cons_of_not_isStep stack (not_isStep_of_idle idle),
          walk_cons_of_not_isStep stack (not_isStep_of_idle idle), inductionHypothesis]
      · cases stack with
        | nil => rfl
        | cons name outer => exact inductionHypothesis outer
      · rw [walk_cons_of_goesDown stack down, walk_cons_of_goesDown stack down,
          inductionHypothesis]

theorem exists_front_cons_iff {fact : List String → Prop} {segment : String}
    {rest : List String} :
    (∃ front, front <+: segment :: rest ∧ fact front) ↔
      fact [] ∨ ∃ front, front <+: rest ∧ fact (segment :: front) := by
  simp only [List.prefix_cons_iff, or_and_right, exists_or, exists_eq_left]
  refine or_congr_right ⟨?_, ?_⟩
  · rintro ⟨front, ⟨tail, rfl, isFront⟩, holds⟩
    exact ⟨tail, isFront, holds⟩
  · rintro ⟨tail, isFront, holds⟩
    exact ⟨segment :: tail, ⟨tail, rfl, isFront⟩, holds⟩

/-- A walk fails exactly if a front of the segments leads up more often than the stack and the
segments that lead down allow. -/
theorem walk_eq_none_iff (stack parts : List String) :
    walk stack parts = none ↔
      ∃ front, front <+: parts ∧ stack.length + front.countP goesDown < front.count ".." := by
  induction parts generalizing stack with
  | nil => simp [walk]
  | cons segment rest inductionHypothesis =>
      simp only [exists_front_cons_iff]
      rcases segment_cases segment with idle | rfl | down
      · have notUp : segment ≠ ".." := by rcases idle with rfl | rfl <;> decide
        have notDown : goesDown segment = false := by rcases idle with rfl | rfl <;> rfl
        rw [walk_cons_of_not_isStep stack (not_isStep_of_idle idle), inductionHypothesis]
        simp [notUp, notDown]
      · have notDown : goesDown ".." = false := rfl
        cases stack with
        | nil =>
            exact iff_of_true rfl (Or.inr ⟨[], List.nil_prefix, by decide⟩)
        | cons name outer =>
            rw [walk_cons_up, inductionHypothesis]
            simp [notDown, Nat.add_right_comm]
      · have notUp : segment ≠ ".." := by
          rintro rfl
          exact absurd down (by decide)
        rw [walk_cons_of_goesDown stack down, inductionHypothesis]
        simp [notUp, down, Nat.add_right_comm, Nat.add_assoc]

/-! ## Rules and walks -/

theorem climbsOut_iff (parts : List String) : ClimbsOut parts ↔ walk [] parts = none := by
  rw [walk_eq_none_iff]
  simp [ClimbsOut]

theorem walk_of_collapsesTo {parts names : List String} (collapses : CollapsesTo parts names) :
    walk [] parts = some names := by
  -- A walk over a front leaves some names, and from there each rule is a step or two of the walk.
  induction collapses with
  | @names names areNames =>
      have walked := walk_names [] areNames []
      rw [List.append_nil, List.append_nil] at walked
      rw [walked, walk, List.reverse_reverse]
  | idle idle later inductionHypothesis =>
      rw [walk_append] at inductionHypothesis ⊢
      simpa only [walk_cons_of_not_isStep _ (not_isStep_of_idle idle)] using inductionHypothesis
  | up isName later inductionHypothesis =>
      rw [walk_append] at inductionHypothesis ⊢
      simpa only [walk_cons_of_isStep _ (isStep_of_isName isName) isName.notUp,
        walk_cons_up] using inductionHypothesis

/-- What a walk from a stack finds is what the names on the stack and the segments collapse to. -/
theorem collapsesTo_of_walk {stack parts names : List String}
    (onStack : ∀ name ∈ stack, IsName name) (clean : ∀ part ∈ parts, '/' ∉ part.toList)
    (walked : walk stack parts = some names) : CollapsesTo (stack.reverse ++ parts) names := by
  induction parts generalizing stack with
  | nil =>
      obtain rfl : stack.reverse = names := by simpa [walk] using walked
      rw [List.append_nil]
      exact .names fun name member => onStack name (List.mem_reverse.1 member)
  | cons segment rest inductionHypothesis =>
      have cleanRest : ∀ part ∈ rest, '/' ∉ part.toList :=
        fun part member => clean part (List.mem_cons_of_mem _ member)
      rcases segment_cases segment with idle | rfl | down
      · rw [walk_cons_of_not_isStep stack (not_isStep_of_idle idle)] at walked
        exact .idle idle (inductionHypothesis onStack cleanRest walked)
      · cases stack with
        | nil => simp [walk] at walked
        | cons name outer =>
            rw [List.forall_mem_cons] at onStack
            have later := inductionHypothesis onStack.2 cleanRest walked
            rw [List.reverse_cons, List.append_assoc, List.singleton_append]
            exact .up onStack.1 later
      · obtain ⟨⟨filled, notHere⟩, notUp⟩ : (segment ≠ "" ∧ segment ≠ ".") ∧ segment ≠ ".." := by
          simpa [goesDown, isStep] using down
        have isName : IsName segment := ⟨filled, notHere, notUp, clean segment List.mem_cons_self⟩
        rw [walk_cons_of_goesDown stack down] at walked
        have later :=
          inductionHypothesis (List.forall_mem_cons.2 ⟨isName, onStack⟩) cleanRest walked
        rwa [List.reverse_cons, List.append_assoc, List.singleton_append] at later

theorem collapsesTo_segments_iff (path : String) (names : List String) :
    CollapsesTo (segments path) names ↔ walk [] (segments path) = some names :=
  ⟨walk_of_collapsesTo, collapsesTo_of_walk (List.forall_mem_nil _) fun _ member =>
    Text.slash_not_mem_of_mem_segments member⟩

theorem isName_of_collapsesTo {parts names : List String} (collapses : CollapsesTo parts names) :
    ∀ name ∈ names, IsName name := by
  induction collapses with
  | names areNames => exact areNames
  | idle _ _ inductionHypothesis => exact inductionHypothesis
  | up _ _ inductionHypothesis => exact inductionHypothesis

/-! ## Keys below a root -/

/-- Names strictly below the root directory: the name of the root, and at least one more. -/
def BelowRoot (rootName : String) (names : List String) : Prop :=
  ∃ below, below ≠ [] ∧ names = rootName :: below

/-- The text of a key shows whether its names are strictly below the root. -/
theorem inside?_joinSegments_iff {rootName : String} (isRoot : IsName rootName)
    {names : List String} (areNames : ∀ name ∈ names, IsName name) (key : String) :
    inside? rootName (joinSegments names) = some key ↔
      BelowRoot rootName names ∧ joinSegments names = key := by
  constructor
  · rw [inside?_eq_some_iff, isInside, List.isPrefixOf_iff_prefix]
    rintro ⟨same, rest, shape⟩
    refine ⟨⟨segments (String.ofList rest), Text.segments_ne_nil _, ?_⟩, same⟩
    have filled : names ≠ [] := by
      rintro rfl
      simp [joinSegments] at shape
    have text : joinSegments names = rootName ++ "/" ++ String.ofList rest := by
      rw [← String.toList_inj, ← shape]
      simp
    rw [← Text.segments_joinSegments filled fun name member => (areNames name member).clean, text,
      Text.segments_append_slash, Text.segments_of_not_mem isRoot.clean]
    rfl
  · rintro ⟨⟨below, filled, rfl⟩, rfl⟩
    exact inside?_joinSegments rootName filled

/-- The answer for a path: a key of names strictly below the root, or none if the path leads to
no such key. -/
structure Confined (rootName path : String) (key? : Option String) : Prop where
  found : ∀ key, key? = some key →
    (∀ name ∈ segments key, IsName name) ∧ BelowRoot rootName (segments key) ∧
      CollapsesTo (segments path) (segments key)
  missing : key? = none ↔
    ClimbsOut (segments path) ∨
      ∃ names, CollapsesTo (segments path) names ∧ ¬ BelowRoot rootName names

/-- The normal form of a path that lies inside the root is confined to it. -/
theorem confined {rootName : String} (isRoot : IsName rootName) (path : String) :
    Confined rootName path ((normalize? path).bind (inside? rootName)) := by
  cases walked : walk [] (segments path) with
  | none =>
      have answer : (normalize? path).bind (inside? rootName) = none := by
        rw [normalize?, walked]
        rfl
      rw [answer]
      exact ⟨by simp, by simp [climbsOut_iff, walked]⟩
  | some names =>
      have collapses := (collapsesTo_segments_iff path names).2 walked
      have areNames := isName_of_collapsesTo collapses
      have answer : (normalize? path).bind (inside? rootName) =
          inside? rootName (joinSegments names) := by
        rw [normalize?, walked]
        rfl
      rw [answer]
      refine ⟨?found, ?missing⟩
      case found =>
        intro key found
        obtain ⟨below, rfl⟩ := (inside?_joinSegments_iff isRoot areNames key).1 found
        have filled : names ≠ [] := by
          obtain ⟨_, _, rfl⟩ := below
          simp
        rw [Text.segments_joinSegments filled fun name member => (areNames name member).clean]
        exact ⟨areNames, below, collapses⟩
      case missing =>
        have only : ∀ others, CollapsesTo (segments path) others ↔ others = names := by
          intro others
          rw [collapsesTo_segments_iff, walked, Option.some.injEq, eq_comm]
        simp [Option.eq_none_iff_forall_ne_some, inside?_joinSegments_iff isRoot areNames,
          climbsOut_iff, walked, only]

/-! ## References -/

/-- A path from a directory as one path. The empty directory is where keys start. -/
def pathFrom (directory path : String) : String :=
  if directory = "" then path else directory ++ "/" ++ path

/-- A reference has a key exactly if its path from the root, or from the directory of the file,
collapses to names strictly below the root. If it has none it stays as it was written. -/
theorem references_stay_inside {rootName : String} (isRoot : IsName rootName)
    (directory literal : String) :
    Confined rootName (rootName ++ "/" ++ literal) (ofRooted? rootName literal) ∧
      Confined rootName (pathFrom directory literal) (ofRelative? rootName directory literal) ∧
        ∀ kind : Reference.Kind,
          Reference.resolve rootName directory ⟨kind, literal, true⟩ =
              (ofRooted? rootName literal).getD ("res://" ++ literal) ∧
            Reference.resolve rootName directory ⟨kind, literal, false⟩ =
              (ofRelative? rootName directory literal).getD literal := by
  refine ⟨?rooted, ?relative, fun kind => ⟨rfl, rfl⟩⟩
  case rooted =>
    rw [ofRooted?, if_neg isRoot.filled]
    exact confined isRoot _
  case relative =>
    rw [ofRelative?, if_neg isRoot.filled]
    exact confined isRoot _

/-- From the root the path climbs above its start. From a directory below it collapses to a file
of another project, whose name begins with that of the root. -/
theorem references_stay_inside_lookalike :
    IsName "game" ∧
      ofRooted? "game" "../../game_assets/x.gd" = none ∧
        ofRelative? "game" "game/ui" "../../game_assets/x.gd" = none ∧
          ∀ kind : Reference.Kind,
            Reference.resolve "game" "game/ui" ⟨kind, "../../game_assets/x.gd", true⟩ =
                "res://../../game_assets/x.gd" ∧
              Reference.resolve "game" "game/ui" ⟨kind, "../../game_assets/x.gd", false⟩ =
                "../../game_assets/x.gd" := by
  have isRoot : IsName "game" := by decide
  obtain ⟨rooted, relative, written⟩ :=
    references_stay_inside isRoot "game/ui" "../../game_assets/x.gd"
  have climbs : ClimbsOut (segments "game/../../game_assets/x.gd") :=
    ⟨["game", "..", ".."], by decide +kernel, by decide⟩
  have cut : segments (pathFrom "game/ui" "../../game_assets/x.gd") =
      ["game"] ++ "ui" :: ".." :: ["..", "game_assets", "x.gd"] := by decide +kernel
  have other : CollapsesTo ([] ++ "game" :: ".." :: ["game_assets", "x.gd"])
      ["game_assets", "x.gd"] := .up isRoot (.names (by decide))
  have collapses : CollapsesTo (segments (pathFrom "game/ui" "../../game_assets/x.gd"))
      ["game_assets", "x.gd"] := by
    rw [cut]
    exact .up (by decide) other
  have outside : ¬ BelowRoot "game" ["game_assets", "x.gd"] := by
    rintro ⟨below, _, shape⟩
    simp at shape
  have noRooted := rooted.missing.2 (Or.inl climbs)
  have noRelative := relative.missing.2 (Or.inr ⟨_, collapses, outside⟩)
  refine ⟨isRoot, noRooted, noRelative, fun kind => ?_⟩
  rw [(written kind).1, (written kind).2, noRooted, noRelative]
  exact ⟨rfl, rfl⟩

example : ofRelative? "game" "game/ui" "../../game/./hud.gd" = some "game/hud.gd" ∧
    ofRooted? "game" "ui/../../game/hud.gd" = some "game/hud.gd" := by
  decide +kernel

end GodotGraph.Key
