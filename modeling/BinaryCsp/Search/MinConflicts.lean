import BinaryCsp.Least
import BinaryCsp.Search.Outcome

/-!
# Min-conflicts search

A local search on complete assignments.  It starts from a greedy one, in which each variable in
turn takes a value with the fewest conflicts against those already assigned.  Each step then picks
a conflicted variable at random and gives it a value with the fewest conflicts; ties are broken at
random.

The search reads the declared domains only, and leaves current domains alone.  It cannot show that
there is no solution: running out of steps proves nothing.
-/

namespace BinaryCsp

/-- A min-conflicts search of at most so many steps. -/
structure MinConflicts where
  maxSteps : Nat
  deriving DecidableEq

namespace MinConflicts

/-- The number of steps if none is given. -/
def defaultSteps : Nat := 100000

variable {V T σ : Type} [DecidableEq V] (P : Problem V T)

/-- Gives a variable a value with the fewest conflicts, or none if its domain is empty. -/
def settle (v : V) (a : Assignment V T) (w : World V T σ) :
    Option (Assignment V T) × World V T σ :=
  let assigned := P.assignedNeighbors a v
  match w.context.chooseLeast (P.clashes v assigned) (P.domain v) with
  | (none, c) => (none, { w with context := c })
  | (some x, c) => (some (a.insert v x), ⟨w.state.countAssign, c⟩)

/-- Settles variables one after the other, until one has an empty domain. -/
def greedy : List V → Assignment V T → World V T σ → Option (Assignment V T) × World V T σ
  | [], a, w => (some a, w)
  | v :: vs, a, w =>
    match settle P v a w with
    | (none, w) => (none, w)
    | (some a, w) => greedy vs a w

def countStep (w : World V T σ) : World V T σ :=
  { w with context :=
      w.context.count fun n => { n with minConflictsSteps := n.minConflictsSteps + 1 } }

/-- Moves one conflicted variable; none if there is no conflict. -/
def move (a : Assignment V T) (w : World V T σ) : Option (Assignment V T) × World V T σ :=
  match w.context.choose (P.conflicted a) with
  | (none, c) => (none, { w with context := c })
  | (some v, c) =>
    match settle P v a { w with context := c } with
    | (settled, w) => (some (settled.getD a), countStep w)

/-- Moves until there is no conflict, the limit says stop, or the steps run out. -/
def climb : Nat → Assignment V T → World V T σ → Outcome V T × World V T σ
  | 0, _, w => (.budgetExhausted, w)
  | steps + 1, a, w =>
    match w.context.poll with
    | (true, c) => (.budgetExhausted, { w with context := c })
    | (false, c) =>
      match move P a { w with context := c } with
      | (none, w) => (.solved a, w)
      | (some a, w) => climb steps a w

def run (m : MinConflicts) (w : World V T σ) : Outcome V T × World V T σ :=
  match greedy P P.vars .empty w with
  | (none, w) => (.unsatisfiable, w)
  | (some a, w) => climb P m.maxSteps a w

def toStrategy (m : MinConflicts) : Strategy V T σ where
  describe := "min-conflicts(max_steps = " ++ toString m.maxSteps ++ ")"
  solve w :=
    match m.run P w with
    | (outcome, w') => conclude P "min-conflicts" w.state.assigns (.ok outcome, w')

end MinConflicts

end BinaryCsp
