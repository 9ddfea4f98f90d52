import BinaryCsp.Context
import BinaryCsp.State

/-!
# Summaries for reading

A problem with its state, and a context, in one line each.
-/

namespace BinaryCsp

def State.summary {V T : Type} [DecidableEq V] (P : Problem V T) (s : State V T)
    (showVar : V → String) : String :=
  "Csp \x7b variables: [" ++ ", ".intercalate (P.vars.map showVar) ++ "], pruning: " ++
    toString s.current.isSome ++ ", nassigns: " ++ toString s.assigns ++ " \x7d"

def Context.summary {σ : Type} (c : Context σ) : String :=
  let n := c.stats
  "SearchContext \x7b stats: SearchStats \x7b nodes_visited: " ++ toString n.nodesVisited ++
    ", backtracks: " ++ toString n.backtracks ++ ", assignments: " ++ toString n.assignments ++
    ", checks: " ++ toString n.checks ++ ", prunings: " ++ toString n.prunings ++
    ", propagations: " ++ toString n.propagations ++ ", min_conflicts_steps: " ++
    toString n.minConflictsSteps ++ ", elapsed_micros: " ++ toString n.elapsedMicros ++
    " \x7d, .. \x7d"

end BinaryCsp
