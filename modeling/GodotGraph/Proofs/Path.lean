import GodotGraph.Path
import GodotGraph.Proofs.Text.Pieces

/-!
Contract: the components of written paths.

Owns:
- cutting a text at slashes as the inverse of joining segments;
- the components of a path as those of its segments;
- the path above a path, which has all components but the last.

Does not own: keys, which forget how a path was written.
-/

set_option autoImplicit false

namespace GodotGraph

namespace Text

/-! ## Segments -/

theorem segments_append_slash (first second : String) :
    segments (first ++ "/" ++ second) = segments first ++ segments second := by
  have shape : (first ++ "/" ++ second).toList = first.toList ++ '/' :: second.toList := by simp
  rw [segments, shape, pieces_append_separator, List.map_append]
  rfl

theorem segments_ne_nil (text : String) : segments text ≠ [] := by
  simpa [segments] using pieces_ne_nil '/' text.toList

theorem segments_of_not_mem {text : String} (absent : '/' ∉ text.toList) :
    segments text = [text] := by
  rw [segments, pieces_of_not_mem absent]
  simp

theorem slash_not_mem_of_mem_segments {text segment : String} (member : segment ∈ segments text) :
    '/' ∉ segment.toList := by
  obtain ⟨piece, isPiece, rfl⟩ := List.mem_map.1 member
  rw [String.toList_ofList]
  exact not_mem_of_mem_pieces isPiece

theorem joinSegments_cons_cons (first next : String) (others : List String) :
    joinSegments (first :: next :: others) = first ++ "/" ++ joinSegments (next :: others) :=
  String.intercalate_cons_cons

theorem joinSegments_append {first second : List String} (firstFilled : first ≠ [])
    (secondFilled : second ≠ []) :
    joinSegments (first ++ second) = joinSegments first ++ "/" ++ joinSegments second := by
  induction first with
  | nil => exact absurd rfl firstFilled
  | cons head rest inductionHypothesis =>
      cases rest with
      | nil =>
          obtain ⟨next, others, rfl⟩ := List.exists_cons_of_ne_nil secondFilled
          rw [List.singleton_append, joinSegments_cons_cons]
          simp [joinSegments]
      | cons next others =>
          rw [List.cons_append, List.cons_append, joinSegments_cons_cons, ← List.cons_append,
            inductionHypothesis (by simp), joinSegments_cons_cons]
          simp only [String.append_assoc]

/-- Segments without slashes are read back from their text. -/
theorem segments_joinSegments {parts : List String} (filled : parts ≠ [])
    (clean : ∀ part ∈ parts, '/' ∉ part.toList) : segments (joinSegments parts) = parts := by
  induction parts with
  | nil => exact absurd rfl filled
  | cons head rest inductionHypothesis =>
      have headClean := clean head List.mem_cons_self
      cases rest with
      | nil =>
          have single : joinSegments [head] = head := by simp [joinSegments]
          rw [single, segments_of_not_mem headClean]
      | cons next others =>
          have later := inductionHypothesis (by simp) fun part member =>
            clean part (List.mem_cons_of_mem _ member)
          rw [joinSegments_cons_cons, segments_append_slash, segments_of_not_mem headClean, later]
          rfl

/-- A text is its segments with one slash between any two. -/
theorem joinSegments_segments (text : String) : joinSegments (segments text) = text := by
  have letters : (segments text).map String.toList = pieces '/' text.toList := by
    rw [segments, List.map_map]
    exact List.map_id'' (fun _ => String.toList_ofList) _
  rw [← String.toList_inj, joinSegments, String.toList_intercalate, letters]
  exact intercalate_pieces '/' text.toList

end Text

namespace Path

open Text (segments joinSegments)

/-! ## Components of segments -/

/-- The components of a path with the given segments. -/
def componentsOf (absolute : Bool) (parts : List String) : List Component :=
  (if absolute then [.root] else if parts.head? = some "." then [.here] else []) ++
    parts.filterMap Component.ofSegment

theorem components_eq (path : String) :
    components path = componentsOf (isAbsolute path) (bodySegments path) := by
  unfold components componentsOf
  cases isAbsolute path with
  | true => rfl
  | false => by_cases dot : (bodySegments path).head? = some "." <;> simp [dot]

theorem mem_segments_of_mem_bodySegments {path segment : String}
    (member : segment ∈ bodySegments path) : segment ∈ segments path := by
  unfold bodySegments at member
  split at member
  · exact List.mem_of_mem_drop member
  · exact member

/-- A segment that is neither empty nor made of one or two dots. -/
structure IsName (segment : String) : Prop where
  filled : segment ≠ ""
  notHere : segment ≠ "."
  notUp : segment ≠ ".."
  clean : '/' ∉ segment.toList

instance (segment : String) : Decidable (IsName segment) :=
  decidable_of_iff (segment ≠ "" ∧ segment ≠ "." ∧ segment ≠ ".." ∧ '/' ∉ segment.toList)
    ⟨fun ⟨filled, notHere, notUp, clean⟩ => ⟨filled, notHere, notUp, clean⟩,
      fun isName => ⟨isName.filled, isName.notHere, isName.notUp, isName.clean⟩⟩

theorem eq_of_ofSegment {segment name : String}
    (isName : Component.ofSegment segment = some (.name name)) :
    segment = name ∧ segment ≠ "" ∧ segment ≠ "." ∧ segment ≠ ".." := by
  unfold Component.ofSegment at isName
  split at isName
  · cases isName
  · next counts =>
      split at isName
      · cases isName
      · next notUp =>
          cases isName
          rw [Bool.or_eq_true, not_or, decide_eq_true_eq, decide_eq_true_eq] at counts
          exact ⟨rfl, counts.1, counts.2, notUp⟩

/-- The names among the components of a path are segments of it. -/
theorem mem_bodySegments_of_mem_components {path name : String}
    (member : Component.name name ∈ components path) :
    name ∈ bodySegments path ∧ Component.ofSegment name = some (.name name) := by
  rw [components_eq, componentsOf, List.mem_append] at member
  rcases member with front | body
  · split at front
    · simp at front
    · split at front <;> simp at front
  · obtain ⟨segment, inBody, isSegment⟩ := List.mem_filterMap.1 body
    obtain ⟨rfl, -⟩ := eq_of_ofSegment isSegment
    exact ⟨inBody, isSegment⟩

/-- These segments are ordinary ones. -/
theorem isName_of_mem_components {path name : String}
    (member : Component.name name ∈ components path) : IsName name := by
  obtain ⟨inBody, isSegment⟩ := mem_bodySegments_of_mem_components member
  obtain ⟨-, filled, notHere, notUp⟩ := eq_of_ofSegment isSegment
  have clean := Text.slash_not_mem_of_mem_segments (mem_segments_of_mem_bodySegments inBody)
  exact ⟨filled, notHere, notUp, clean⟩

theorem getLast?_components {path name : String} (found : fileName? path = some name) :
    (components path).getLast? = some (.name name) := by
  obtain ⟨component, last, isName⟩ := Option.bind_eq_some_iff.1 found
  cases component with
  | name text =>
      obtain rfl : text = name := by simpa [Component.name?] using isName
      exact last
  | _ => simp [Component.name?] at isName

/-! ## Dropping the last component -/

theorem dropIdle_suffix (absolute : Bool) (reversed : List String) :
    dropIdle absolute reversed <:+ reversed := by
  induction reversed with
  | nil => exact List.suffix_refl _
  | cons segment others inductionHypothesis =>
      cases others with
      | nil =>
          unfold dropIdle
          split
          · exact List.nil_suffix
          · exact List.suffix_refl _
      | cons next rest =>
          unfold dropIdle
          split
          · exact inductionHypothesis.trans (List.suffix_cons _ _)
          · exact List.suffix_refl _

/-- Segments that are dropped at the end are no components. -/
theorem componentsOf_dropIdle (absolute : Bool) (reversed : List String) :
    componentsOf absolute (dropIdle absolute reversed).reverse =
      componentsOf absolute reversed.reverse := by
  induction reversed with
  | nil => rfl
  | cons segment others inductionHypothesis =>
      cases others with
      | nil =>
          unfold dropIdle
          split
          · next idle =>
              rcases Bool.or_eq_true _ _ ▸ idle with empty | dot
              · obtain rfl : segment = "" := by simpa using empty
                cases absolute <;> rfl
              · obtain ⟨rfl, rfl⟩ : absolute = true ∧ segment = "." := by simpa using dot
                rfl
          · rfl
      | cons next rest =>
          unfold dropIdle
          split
          · next idle =>
              have silent : Component.ofSegment segment = none := by
                rw [Component.ofSegment, if_pos idle]
              have front : ((next :: rest).reverse ++ [segment]).head? =
                  (next :: rest).reverse.head? := List.head?_append_of_ne_nil _ (by simp)
              rw [inductionHypothesis, List.reverse_cons (a := segment), componentsOf, componentsOf,
                front, List.filterMap_append, List.filterMap_cons_none silent, List.filterMap_nil,
                List.append_nil]
          · rfl

/-- The segment that is kept last is a component of its own. -/
theorem componentsOf_of_dropIdle_eq_cons {absolute : Bool} {reversed above : List String}
    {last : String} (kept : dropIdle absolute reversed = last :: above) :
    ∃ component, componentsOf absolute (last :: above).reverse =
      componentsOf absolute above.reverse ++ [component] := by
  have one : ∀ segment : String, segment ≠ "" → segment ≠ "." →
      ∃ component, Component.ofSegment segment = some component := by
    intro segment filled notHere
    unfold Component.ofSegment
    split
    · next idle => simp [filled, notHere] at idle
    · split <;> exact ⟨_, rfl⟩
  induction reversed with
  | nil => simp [dropIdle] at kept
  | cons segment others inductionHypothesis =>
      cases others with
      | nil =>
          unfold dropIdle at kept
          split at kept
          · simp at kept
          · next counts =>
              obtain ⟨rfl, rfl⟩ : segment = last ∧ [] = above := by simpa using kept
              by_cases here : segment = "."
              · subst here
                obtain rfl : absolute = false := by simpa using counts
                exact ⟨.here, rfl⟩
              · have filled : segment ≠ "" := by
                  rintro rfl
                  simp at counts
                obtain ⟨component, isOne⟩ := one segment filled here
                exact ⟨component, by cases absolute <;> simp [componentsOf, isOne, here]⟩
      | cons next rest =>
          unfold dropIdle at kept
          split at kept
          · exact inductionHypothesis kept
          · next counts =>
              obtain ⟨rfl, rfl⟩ : segment = last ∧ next :: rest = above := by simpa using kept
              obtain ⟨filled, notHere⟩ : segment ≠ "" ∧ segment ≠ "." := by simpa using counts
              obtain ⟨component, isOne⟩ := one segment filled notHere
              have front : ((next :: rest).reverse ++ [segment]).head? =
                  (next :: rest).reverse.head? := List.head?_append_of_ne_nil _ (by simp)
              refine ⟨component, ?_⟩
              rw [List.reverse_cons (a := segment), componentsOf, componentsOf, front,
                List.filterMap_append, List.filterMap_cons_some isOne, List.filterMap_nil,
                List.append_assoc]

/-! ## Writing segments -/

/-- The path with the given segments. -/
def write (absolute : Bool) (parts : List String) : String :=
  (if absolute then "/" else "") ++ joinSegments parts

theorem segments_empty : segments "" = [""] := rfl

theorem components_write {absolute : Bool} {parts : List String}
    (clean : ∀ part ∈ parts, '/' ∉ part.toList)
    (relative : absolute = false → parts.head? ≠ some "") :
    components (write absolute parts) = componentsOf absolute parts := by
  have blank : componentsOf absolute [""] = componentsOf absolute [] := by
    cases absolute <;> rfl
  have body : componentsOf absolute (segments (joinSegments parts)) =
      componentsOf absolute parts := by
    cases parts with
    | nil => exact blank
    | cons head rest => rw [Text.segments_joinSegments (by simp) clean]
  rw [components_eq]
  cases absolute with
  | true =>
      have front : (write true parts).toList = '/' :: (joinSegments parts).toList := by
        simp [write]
      have rooted : isAbsolute (write true parts) = true := by simp [isAbsolute, front]
      have below : bodySegments (write true parts) = segments (joinSegments parts) := by
        have cut : segments (write true parts) = "" :: segments (joinSegments parts) := by
          rw [segments, front, Text.pieces, if_pos rfl]
          rfl
        rw [bodySegments, if_pos rooted, cut]
        rfl
      rw [rooted, below, body]
  | false =>
      have whole : write false parts = joinSegments parts := by simp [write]
      have unrooted : isAbsolute (joinSegments parts) = false := by
        cases parts with
        | nil => rfl
        | cons head rest =>
            have filled : head ≠ "" := by simpa using relative rfl
            obtain ⟨c, others, letters⟩ :=
              List.exists_cons_of_ne_nil (fun empty => filled (String.toList_eq_nil_iff.1 empty))
            have other : c ≠ '/' := by
              rintro rfl
              exact clean head List.mem_cons_self (by simp [letters])
            have front : (joinSegments (head :: rest)).toList.head? = some c := by
              cases rest with
              | nil => simp [joinSegments, letters]
              | cons next more => rw [Text.joinSegments_cons_cons]; simp [letters]
            rw [isAbsolute, front]
            simpa using other
      have below : bodySegments (joinSegments parts) = segments (joinSegments parts) := by
        rw [bodySegments, unrooted]
        rfl
      rw [whole, unrooted, below, body]

/-! ## Paths of names -/

/-- The ordinary names on a path. -/
def names (path : String) : List String := (components path).filterMap Component.name?

theorem filterMap_name? (names : List String) :
    (names.map Component.name).filterMap Component.name? = names := by
  rw [List.filterMap_map]
  exact List.filterMap_some

section

variable {parts : List String} (isName : ∀ part ∈ parts, IsName part)

include isName

theorem filterMap_ofSegment : parts.filterMap Component.ofSegment = parts.map .name := by
  rw [← List.filterMap_eq_map]
  apply List.filterMap_congr
  intro part member
  have proper := isName part member
  simp [Component.ofSegment, proper.filled, proper.notHere, proper.notUp]

theorem components_write_names (absolute : Bool) :
    components (write absolute parts) =
      (if absolute then [.root] else []) ++ parts.map .name := by
  have clean : ∀ part ∈ parts, '/' ∉ part.toList := fun part member => (isName part member).clean
  have filled : parts.head? ≠ some "" := fun empty =>
    (isName "" (List.mem_of_head? empty)).filled rfl
  have notHere : parts.head? ≠ some "." := fun dot =>
    (isName "." (List.mem_of_head? dot)).notHere rfl
  rw [components_write clean fun _ => filled, componentsOf, if_neg notHere,
    filterMap_ofSegment isName]

theorem names_write (absolute : Bool) : names (write absolute parts) = parts := by
  rw [names, components_write_names isName, List.filterMap_append, filterMap_name?]
  cases absolute <;> rfl

theorem fileName?_write (absolute : Bool) : fileName? (write absolute parts) = parts.getLast? := by
  rw [fileName?, components_write_names isName, List.getLast?_append, List.getLast?_map]
  cases parts.getLast? with
  | none => cases absolute <;> rfl
  | some last => rfl

end

theorem getLast?_toList_write_concat {above : List String} {last : String} (filled : last ≠ "")
    (absolute : Bool) :
    (write absolute (above ++ [last])).toList.getLast? = last.toList.getLast? := by
  have letters : last.toList ≠ [] := fun empty => filled (String.toList_eq_nil_iff.1 empty)
  have single : joinSegments [last] = last := String.intercalate_singleton
  cases above with
  | nil =>
      rw [List.nil_append, write, single, String.toList_append,
        List.getLast?_append_of_ne_nil _ letters]
  | cons head rest =>
      rw [write, Text.joinSegments_append (by simp) (by simp), single, String.toList_append,
        String.toList_append, ← List.append_assoc, List.getLast?_append_of_ne_nil _ letters]

/-- The path of a name below the directory with all other names on its path. -/
theorem join_write {parts : List String} (isName : ∀ part ∈ parts, IsName part) (name : String) :
    join (write true parts) name = write true (parts ++ [name]) := by
  rcases List.eq_nil_or_concat' parts with rfl | ⟨above, last, rfl⟩
  · simp [join, write, joinSegments]
  · have proper : IsName last := isName last (by simp)
    have noSlash : (write true (above ++ [last])).toList.getLast? ≠ some '/' := by
      rw [getLast?_toList_write_concat proper.filled]
      exact fun slash => proper.clean (List.mem_of_getLast? slash)
    have filled : write true (above ++ [last]) ≠ "" := by simp [write]
    have oneMore : [name] ≠ [] := List.cons_ne_nil name []
    rw [join, if_neg filled, if_neg noSlash, write, write,
      Text.joinSegments_append (by simp) oneMore]
    simp [joinSegments, String.append_assoc]

/-- A relative path starts with a segment that is not empty, unless it is empty itself. -/
theorem head?_bodySegments {path : String} (relative : isAbsolute path = false) (filled : path ≠ "") :
    (bodySegments path).head? ≠ some "" := by
  obtain ⟨c, rest, letters⟩ :=
    List.exists_cons_of_ne_nil (fun empty => filled (String.toList_eq_nil_iff.1 empty))
  have other : c ≠ '/' := by
    rintro rfl
    simp [isAbsolute, letters] at relative
  have body : bodySegments path = segments path := by
    rw [bodySegments, relative]
    rfl
  rw [body, segments, letters, Text.pieces, if_neg other]
  cases shape : Text.pieces '/' rest with
  | nil => exact absurd shape (Text.pieces_ne_nil _ _)
  | cons piece others =>
      simp

/-! ## The path above -/

/-- The path above a path has all of its components but the last. -/
theorem components_parent? {path above : String} (found : parent? path = some above) :
    ∃ last, components path = components above ++ [last] := by
  unfold parent? at found
  dsimp only at found
  split at found
  · simp at found
  · next last rest kept =>
      have written : above =
          write (isAbsolute path) (dropIdle (isAbsolute path) rest).reverse := by
        rw [write]
        exact (Option.some.inj found).symm
      have whole := componentsOf_dropIdle (isAbsolute path) (bodySegments path).reverse
      rw [kept, List.reverse_reverse, ← components_eq] at whole
      obtain ⟨component, split⟩ := componentsOf_of_dropIdle_eq_cons kept
      have inPath : (dropIdle (isAbsolute path) rest).reverse <+: bodySegments path := by
        have inner := (dropIdle_suffix (isAbsolute path) rest).trans (List.suffix_cons last rest)
        have outer := dropIdle_suffix (isAbsolute path) (bodySegments path).reverse
        rw [kept] at outer
        have both := List.reverse_prefix.2 (inner.trans outer)
        rwa [List.reverse_reverse] at both
      have clean : ∀ part ∈ (dropIdle (isAbsolute path) rest).reverse, '/' ∉ part.toList :=
        fun part member => Text.slash_not_mem_of_mem_segments
          (mem_segments_of_mem_bodySegments (inPath.subset member))
      have relative : isAbsolute path = false →
          (dropIdle (isAbsolute path) rest).reverse.head? ≠ some "" := by
        intro unrooted empty
        have filled : path ≠ "" := by
          rintro rfl
          have nothing : dropIdle (isAbsolute "") (bodySegments "").reverse = [] := rfl
          rw [nothing] at kept
          simp at kept
        obtain ⟨more, shape⟩ := inPath
        refine head?_bodySegments unrooted filled ?_
        rw [← shape, List.head?_append, empty]
        rfl
      refine ⟨component, ?_⟩
      rw [← whole, split, written, components_write clean relative, componentsOf_dropIdle]

/-- A path with nothing above it has no name. -/
theorem fileName?_of_parent?_eq_none {path : String} (none : parent? path = none) :
    fileName? path = Option.none := by
  unfold parent? at none
  dsimp only at none
  split at none
  · next kept =>
      have whole := componentsOf_dropIdle (isAbsolute path) (bodySegments path).reverse
      rw [kept, List.reverse_reverse, ← components_eq] at whole
      rw [fileName?, ← whole]
      cases isAbsolute path <;> rfl
  · simp at none

/-- What comes after a leading part of a path is left of it. -/
theorem afterPart?_append (base rest : List Component) :
    afterPart? base (base ++ rest) = some rest := by
  induction base with
  | nil => rfl
  | cons component base inductionHypothesis =>
      rw [List.cons_append, afterPart?, if_pos rfl, inductionHypothesis]

end Path

end GodotGraph
