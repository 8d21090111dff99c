import GodotGraph.Moment

/-!
Contract: the figures of a report.

Owns: the counts of a finished analysis and the two shares derived from them.
-/

set_option autoImplicit false

namespace GodotGraph.Report

structure Summary where
  totalFiles : Nat
  scriptFiles : Nat
  sceneFiles : Nat
  totalEntities : Nat
  totalDependencies : Nat
  resolvedDependencies : Nat
  unresolvedDependencies : Nat
  hits : Nat
  misses : Nat
  scanDuration : Duration
  errors : Nat
  warnings : Nat
  criticalErrors : Nat
  timestamp : Timestamp
  deriving DecidableEq, Repr

namespace Summary

def empty (timestamp : Timestamp) : Summary where
  totalFiles := 0
  scriptFiles := 0
  sceneFiles := 0
  totalEntities := 0
  totalDependencies := 0
  resolvedDependencies := 0
  unresolvedDependencies := 0
  hits := 0
  misses := 0
  scanDuration := Duration.zero
  errors := 0
  warnings := 0
  criticalErrors := 0
  timestamp := timestamp

/-- The percentage of dependencies that name a known file or entity. -/
def resolution (summary : Summary) : Decimal.Quotient :=
  Decimal.percentage summary.resolvedDependencies summary.totalDependencies

/-- The percentage of attempts that matched. -/
def hitRate (summary : Summary) : Decimal.Quotient :=
  Decimal.percentage summary.hits (summary.hits + summary.misses)

end Summary

end GodotGraph.Report
