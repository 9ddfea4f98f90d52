import BinaryCsp.Search.Inference

/-!
# How a search ends

An `Outcome` is what a search has found out.  A `Strategy` is any way to search: it turns a world
into an answer and the world it leaves behind, and can describe itself.
-/

namespace BinaryCsp

/-- What a search has found out. -/
inductive Outcome (V T : Type) where
  /-- A complete assignment that meets every constraint. -/
  | solved (solution : Assignment V T)
  | unsatisfiable
  /-- The limit, or the number of steps, ran out first; nothing is proven. -/
  | budgetExhausted
  deriving DecidableEq

namespace Outcome

variable {V T : Type}

def solution? : Outcome V T → Option (Assignment V T)
  | solved a => some a
  | _ => none

def isSolved (o : Outcome V T) : Bool := o.solution?.isSome

def label : Outcome V T → String
  | solved _ => "solved"
  | unsatisfiable => "unsatisfiable"
  | budgetExhausted => "budget exhausted"

end Outcome

/-- The answer of a search and the world it leaves behind.  A fault undoes nothing. -/
abbrev Ending (V T σ : Type) := Except (Fault V T) (Outcome V T) × World V T σ

/-- A way to search a problem. -/
structure Strategy (V T σ : Type) where
  describe : String
  solve : World V T σ → Ending V T σ

variable {V T σ : Type} [DecidableEq V]

/-- What every search does when it has ended without a fault: it adds the assignments made since
`before` to the counters, and makes sure that a solution is one. -/
def conclude (P : Problem V T) (search : String) (before : Nat) : Ending V T σ → Ending V T σ
  | (.error f, w) => (.error f, w)
  | (.ok outcome, w) =>
    let w := { w with
      context := w.context.count fun n =>
        { n with assignments := n.assignments + (w.state.assigns - before) } }
    match outcome with
    | .solved a => if P.goalTest a then (.ok outcome, w) else (.error (.unsoundSolution search), w)
    | _ => (.ok outcome, w)

end BinaryCsp
