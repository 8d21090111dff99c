import GodotGraph.Grammar.Words
import GodotGraph.Record
import GodotGraph.Reference
import GodotGraph.Tally

/-!
Contract: what reading one file gives.

Owns:
- trying a grammar on every window of a stream that it applies to;
- the record of a file with the entities known from the file alone.

Every window that a grammar is tried on is counted once.
-/

set_option autoImplicit false

namespace GodotGraph

/-- The outcome of a grammar on one window. -/
abbrev Attempt := Except Pattern.Mismatch Grammar.Match

namespace Grammar

/-- The outcomes of a grammar on the windows it applies to, in stream order. -/
def attempts (grammar : Grammar) (applies : Token.Window → Bool) (tokens : List String) :
    List Attempt :=
  ((Token.windows tokens).filter applies).map grammar.parseWindow

end Grammar

def matchesOf (attempts : List Attempt) : List Grammar.Match :=
  attempts.filterMap Except.toOption

def countsOf (attempts : List Attempt) : List Count :=
  attempts.map Count.ofAttempt

/-- A file, the entities its own facts declare, and the counts made on the way. -/
structure Extraction where
  file : FileRecord
  entities : List EntityRecord
  counts : List Count
  deriving DecidableEq, Repr

/-- As many attempts match as are counted as hits. -/
theorem length_matchesOf (attempts : List Attempt) :
    (matchesOf attempts).length = (countsOf attempts).count .hit := by
  induction attempts with
  | nil => rfl
  | cons attempt others inductionHypothesis =>
      unfold matchesOf countsOf at *
      cases attempt with
      | error mismatch =>
          rw [List.filterMap_cons_none (show Except.toOption (.error mismatch) = none from rfl),
            inductionHypothesis]
          simp [Count.ofAttempt]
      | ok found =>
          rw [List.filterMap_cons_some (show Except.toOption (.ok found) = some found from rfl),
            List.length_cons, inductionHypothesis]
          simp [Count.ofAttempt]

end GodotGraph
