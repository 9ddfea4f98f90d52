import BinaryCsp.Least
import BinaryCsp.State

/-!
# What a search tries first

A `VariableOrdering` picks the variable to branch on; by its type it can only pick a declared
variable without a value, give up, or fail.  A `ValueOrdering` lists the values to try.  Both see
the whole state of the search and may draw at random or remember something, but change nothing of
the problem.
-/

namespace BinaryCsp

variable {V T σ : Type} [DecidableEq V]

/-! ## Variables -/

/-- Picks the variable to branch on. -/
structure VariableOrdering (P : Problem V T) (σ : Type) where
  name : String
  select : State V T → (a : Assignment V T) → Context σ →
    Except (Fault V T) (Option (P.Open a)) × Context σ

/-- The variables that may be assigned next, in declaration order. -/
def Problem.openVariables (P : Problem V T) (a : Assignment V T) : List (P.Open a) :=
  (P.unassigned a).pmap (fun v h => ⟨v, h⟩) fun v h => by
    simpa [Problem.unassigned] using h

/-- How many values a variable has left: the size of its current domain or, while there are no
current domains, the number of declared values without a conflict. -/
def remaining (P : Problem V T) (s : State V T) (a : Assignment V T) (v : V) : Nat :=
  match s.current with
  | some D => (D.listAt v).length
  | none =>
    let assigned := P.assignedNeighbors a v
    (P.domain v).countP fun x => P.clashes v assigned x == 0

namespace VariableOrdering

def firstUnassigned (P : Problem V T) : VariableOrdering P σ where
  name := "first-unassigned"
  select _ a c := (.ok (P.openVariables a).head?, c)

/-- A variable with the fewest values left; ties are broken at random. -/
def minimumRemaining (P : Problem V T) : VariableOrdering P σ where
  name := "mrv"
  select s a c :=
    match c.chooseLeast (fun v => remaining P s a v.val) (P.openVariables a) with
    | (picked, c) => (.ok picked, c)

end VariableOrdering

/-! ## Values -/

/-- Lists the values to try for a variable. -/
structure ValueOrdering (P : Problem V T) (σ : Type) where
  name : String
  order : State V T → Assignment V T → V → Context σ →
    Except (Fault V T) (List T) × Context σ

namespace ValueOrdering

/-- The values that are not ruled out, as they stand. -/
def unordered (P : Problem V T) : ValueOrdering P σ where
  name := "unordered"
  order s _ v c := (s.choices? P v, c)

/-- Values with fewer conflicts first; equal counts keep their order. -/
def byConflicts (P : Problem V T) (a : Assignment V T) (v : V) (xs : List T) : List T :=
  let assigned := P.assignedNeighbors a v
  ((xs.map fun x => (P.clashes v assigned x, x)).mergeSort fun e f => decide (e.1 ≤ f.1)).map
    Prod.snd

/-- The values that are not ruled out, the least constraining first. -/
def leastConstraining (P : Problem V T) : ValueOrdering P σ where
  name := "lcv"
  order s a v c := ((s.choices? P v).map (byConflicts P a v), c)

end ValueOrdering

end BinaryCsp
