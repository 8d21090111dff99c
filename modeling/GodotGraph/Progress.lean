/-!
Contract: telling the user how far the work is.

Owns: the bar and its position, and the lines for users who want every step told.

A quiet reporter shows nothing but warnings. Where a bar is drawn, it stands in for the
lines on single steps.
-/

set_option autoImplicit false

namespace GodotGraph

structure Progress.Bar where
  length : Nat
  position : Nat
  deriving DecidableEq, Repr

/-- What a reporter shows. -/
structure Progress where
  quiet : Bool
  verbose : Bool
  bar : Option Progress.Bar
  deriving DecidableEq, Repr

/-- What a reporter is told. -/
inductive Progress.Event where
  | start (total : Nat) (message : String)
  | update (current total : Nat) (message : String)
  | finish (message : String)
  | warn (message : String)
  deriving DecidableEq, Repr

namespace Progress

def new (quiet verbose showBar : Bool) : Progress where
  quiet := quiet
  verbose := verbose
  bar := if quiet || !showBar then none else some ⟨0, 0⟩

def hidden : Progress := new true false false

def Bar.after (bar : Bar) : Event → Bar
  | .start total _ => ⟨total, 0⟩
  | .update current total _ => ⟨total, current⟩
  | .finish _ => ⟨bar.length, bar.length⟩
  | .warn _ => bar

def after (progress : Progress) (event : Event) : Progress :=
  if progress.quiet then progress
  else { progress with bar := progress.bar.map fun bar => bar.after event }

def lines (progress : Progress) : Event → List String
  | .start _ message =>
      if !progress.quiet && progress.verbose then ["Starting: " ++ message] else []
  | .update current total message =>
      if !progress.quiet && progress.verbose && progress.bar.isNone then
        ["[" ++ toString current ++ "/" ++ toString total ++ "] " ++ message]
      else []
  | .finish message =>
      if !progress.quiet && progress.verbose then ["Finished: " ++ message] else []
  | .warn message => ["Warning: " ++ message]

/-- Where the bar stands, if there is one. -/
def position (progress : Progress) : Option Nat :=
  progress.bar.map Bar.position

def linesOf : Progress → List Event → List String
  | _, [] => []
  | progress, event :: events =>
      progress.lines event ++ linesOf (progress.after event) events

/-- A quiet reporter has no bar, whatever it is told. -/
theorem position_of_quiet (verbose showBar : Bool) (event : Event) :
    ((new true verbose showBar).after event).position = none := by
  simp [new, after, position]

end Progress

end GodotGraph
