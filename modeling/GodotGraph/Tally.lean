/-!
Contract: counting what the grammars of an analysis matched.

Owns: the counts that attempts leave behind, and the totals of such counts.
-/

set_option autoImplicit false

namespace GodotGraph

/-- What one attempt to match a window is counted as. -/
inductive Count where
  | hit
  | miss
  deriving DecidableEq, Repr

def Count.ofAttempt {α β : Type} : Except α β → Count
  | .ok _ => hit
  | .error _ => miss

/-- How many windows a grammar matched, and how many it did not. -/
structure Tally where
  hits : Nat
  misses : Nat
  deriving DecidableEq, Repr

namespace Tally

def ofCounts (counts : List Count) : Tally :=
  ⟨counts.count .hit, counts.count .miss⟩

def add (left right : Tally) : Tally :=
  ⟨left.hits + right.hits, left.misses + right.misses⟩

/-- Counting in two parts gives the same totals. -/
theorem ofCounts_append (first second : List Count) :
    ofCounts (first ++ second) = (ofCounts first).add (ofCounts second) := by
  simp [ofCounts, add, List.count_append]

/-- The order in which attempts are counted does not matter. -/
theorem ofCounts_perm {first second : List Count} (same : first.Perm second) :
    ofCounts first = ofCounts second := by
  simp [ofCounts, same.count_eq]

/-- Every count is of one kind or the other. -/
theorem hits_add_misses (counts : List Count) :
    (ofCounts counts).hits + (ofCounts counts).misses = counts.length := by
  induction counts with
  | nil => rfl
  | cons count rest inductionHypothesis =>
      simp only [ofCounts] at *
      cases count <;> simp <;> omega

end Tally

end GodotGraph
