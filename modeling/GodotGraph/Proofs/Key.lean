import GodotGraph.Analysis
import GodotGraph.Proofs.Path

/-!
Contract: the letters of keys.

Owns: the dot that every key of a file with an extension has.

The key of a file ends in its name, whether the file lies below the base of the keys or
keeps its whole path, so the dot before the extension is never lost.
-/

set_option autoImplicit false

namespace GodotGraph

namespace Text

theorem mem_joinSegments {c : Char} {parts : List String} {part : String} (member : part ∈ parts)
    (inside : c ∈ part.toList) : c ∈ (joinSegments parts).toList := by
  induction parts with
  | nil => simp at member
  | cons first rest inductionHypothesis =>
      cases rest with
      | nil =>
          obtain rfl : part = first := by simpa using member
          simpa [joinSegments] using inside
      | cons next others =>
          rw [joinSegments_cons_cons, String.toList_append, String.toList_append, List.mem_append,
            List.mem_append]
          rcases List.mem_cons.1 member with rfl | inRest
          · exact Or.inl (Or.inl inside)
          · exact Or.inr (inductionHypothesis inRest)

end Text

namespace Path

/-- An extension stands after a dot of the last name. -/
theorem dot_mem_of_extension? {path extension : String} (found : extension? path = some extension) :
    ∃ name, fileName? path = some name ∧ '.' ∈ name.toList := by
  obtain ⟨name, isName, isExtension⟩ := Option.bind_eq_some_iff.1 found
  refine ⟨name, isName, ?_⟩
  cases shape : name.toList.reverse.dropWhile (· ≠ '.') with
  | nil =>
      have whole : splitName name = (name, none) := by
        rw [splitName, shape]
      simp [whole] at isExtension
  | cons c rest =>
      have stop := List.head?_dropWhile_not (fun c => decide (c ≠ '.')) name.toList.reverse
      rw [shape] at stop
      obtain rfl : c = '.' := by simpa using stop
      have inside : '.' ∈ name.toList.reverse :=
        (List.dropWhile_suffix _).subset (shape ▸ List.mem_cons_self)
      exact List.mem_reverse.1 inside

theorem mem_of_mem_components {path name : String} {c : Char}
    (member : Component.name name ∈ components path) (inside : c ∈ name.toList) :
    c ∈ path.toList := by
  have inText : name ∈ Text.segments path :=
    mem_segments_of_mem_bodySegments (mem_bodySegments_of_mem_components member).1
  obtain ⟨piece, isPiece, rfl⟩ := List.mem_map.1 inText
  rw [String.toList_ofList] at inside
  exact Text.mem_of_mem_pieces isPiece inside

end Path

/-- Every key of a file with an extension has a dot. -/
theorem Analysis.dot_mem_keyFor (analysis : Analysis) {source : SourceFile} {extension : String}
    (found : Path.extension? source.path = some extension) :
    '.' ∈ (analysis.keyFor source).toList := by
  obtain ⟨name, isName, dotted⟩ := Path.dot_mem_of_extension? found
  have last := Path.getLast?_components isName
  rw [keyFor]
  generalize (Path.parent? analysis.sourceRoot).getD analysis.sourceRoot = base
  cases below : Key.ofPath? base source.path with
  | none =>
      -- Outside of the base the key is the path with its separators replaced.
      have inPath : '.' ∈ source.path.toList :=
        Path.mem_of_mem_components (List.mem_of_getLast? last) dotted
      simp only [Option.getD_none, Text.replaceChar, String.toList_ofList, List.mem_map]
      exact ⟨'.', inPath, by decide⟩
  | some key =>
      rw [Option.getD_some]
      unfold Key.ofPath? at below
      split at below
      · next first others shape =>
          obtain rfl := Option.some.inj below
          obtain ⟨steps, isBelow, names⟩ := Option.map_eq_some_iff.1 shape
          have whole : Path.components source.path = Path.components base ++ steps :=
            Path.append_of_afterPart? isBelow
          have filled : steps ≠ [] := by
            rintro rfl
            simp at names
          have lastStep : steps.getLast? = some (.name name) := by
            rw [whole, List.getLast?_append_of_ne_nil _ filled] at last
            exact last
          have inNames : name ∈ first :: others := by
            rw [← names]
            exact List.mem_filterMap.2 ⟨.name name, List.mem_of_getLast? lastStep, rfl⟩
          exact Text.mem_joinSegments inNames dotted
      · simp at below

end GodotGraph
