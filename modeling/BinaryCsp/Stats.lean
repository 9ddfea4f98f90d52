/-!
# Counters of a search
-/

namespace BinaryCsp

/-- What a search has done, counted. -/
structure Stats where
  /-- Nodes at which a variable was selected. -/
  nodesVisited : Nat
  /-- Values whose subtree, or whose inference, failed and was undone. -/
  backtracks : Nat
  /-- Assignments made by runs that ended without a fault. -/
  assignments : Nat
  /-- Predicate evaluations made by inference and propagation. -/
  checks : Nat
  /-- Values that inference and propagation ruled out. -/
  prunings : Nat
  /-- Propagation passes that ended without a fault. -/
  propagations : Nat
  minConflictsSteps : Nat
  elapsedMicros : Nat
  deriving DecidableEq

def Stats.zero : Stats := ⟨0, 0, 0, 0, 0, 0, 0, 0⟩

instance : Inhabited Stats := ⟨Stats.zero⟩

end BinaryCsp
