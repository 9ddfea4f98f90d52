/-!
# What can go wrong

A `Fault` says why an operation on a problem was refused.  None of its cases describes how a
search ended: that a problem has no solution, or that a budget ran out, is an answer.

The first cases are mistakes of the caller.  The last two are broken promises between the library
and a plug-in or a caller (`Fault.isBreach`): a value put back twice, and a search that ended with
an assignment that is no solution.

`Fault.message` words every case, given how variables and values are written.
-/

namespace BinaryCsp

/-- Why an operation was refused. -/
inductive Fault (V T : Type) where
  /-- A variable without a domain, or one that is not declared. -/
  | unknownVariable (var : V)
  | declaredTwice (var : V)
  | selfNeighbor (var : V)
  /-- `owner` has `listed` as a neighbor, but not the other way round. -/
  | asymmetricNeighbors (listed owner : V)
  | notNeighbors (a b : V)
  /-- A value that is not, or no longer, in the current domain of the variable. -/
  | valueNotInDomain (var : V) (value : T)
  /-- Current domains were needed before they existed. -/
  | pruningNotSupported
  /-- A variable ordering gave up before every variable was assigned. -/
  | noVariableSelected (ordering : String) (assigned declared : Nat)
  /-- A trail put a value back that its domain already held. -/
  | restoredTwice (var : V) (value : T)
  /-- A search ended with an assignment that breaks a constraint. -/
  | unsoundSolution (search : String)
  deriving DecidableEq

namespace Fault

variable {V T : Type}

/-- Whether the fault is a broken promise rather than a mistake of the caller. -/
def isBreach : Fault V T → Bool
  | restoredTwice .. | unsoundSolution .. => true
  | _ => false

def message (showVar : V → String) (showValue : T → String) : Fault V T → String
  | unknownVariable v => "unknown variable " ++ showVar v
  | declaredTwice v => "variable " ++ showVar v ++ " is declared twice"
  | selfNeighbor v => "variable " ++ showVar v ++ " is declared as its own neighbor"
  | asymmetricNeighbors a b =>
      showVar b ++ " lists " ++ showVar a ++ " as a neighbor, but " ++ showVar a ++
        " does not list " ++ showVar b
  | notNeighbors a b => showVar a ++ " and " ++ showVar b ++ " do not share a constraint"
  | valueNotInDomain v x =>
      "value " ++ showValue x ++ " is not in the current domain of " ++ showVar v
  | pruningNotSupported =>
      "current domains have not been materialized; call support_pruning first"
  | noVariableSelected name a n =>
      name ++ " selected no variable with " ++ toString a ++ " of " ++ toString n ++ " assigned"
  | restoredTwice v x => "restoring " ++ showValue x ++ " twice into " ++ showVar v
  | unsoundSolution search =>
      search ++ " returned an assignment that violates a constraint"

end Fault

end BinaryCsp
