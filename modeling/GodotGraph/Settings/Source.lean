import GodotGraph.Settings.Layer

/-!
Contract: the places that settings come from.

Owns: sources with a priority, and loading several of them in order.

A source with a higher priority goes over those with a lower one. A source that is not
available decides nothing.
-/

set_option autoImplicit false

namespace GodotGraph.Settings

/-- A place that settings come from. -/
structure Source where
  name : String
  priority : Nat
  available : Bool
  load : Except Problem Layer

namespace Source

/-- The settings below, with those of the source over them. -/
def overlay (source : Source) (below : Layer) : Except Problem Layer :=
  if source.available then source.load.map fun layer => layer.atop below else .ok below

def ascending (sources : List Source) : List Source :=
  sources.mergeSort fun left right => left.priority ≤ right.priority

/-- Loads sources one over the other. The first that fails ends it. -/
def overlayAll (sources : List Source) (below : Layer) : Except Problem Layer :=
  sources.foldlM (fun layer source => source.overlay layer) below

/-- Loads all sources by their priorities. -/
def loadAll (sources : List Source) (below : Layer) : Except Problem Layer :=
  overlayAll (ascending sources) below

/-- A source that is not available changes nothing. -/
theorem overlay_of_unavailable {source : Source} (below : Layer)
    (unavailable : source.available = false) : source.overlay below = .ok below := by
  simp [overlay, unavailable]

end Source

end GodotGraph.Settings
