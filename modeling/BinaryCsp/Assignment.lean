import BinaryCsp.Problem

/-!
# Assignments and their conflicts

An `Assignment` gives some variables a value.  A *conflict* of `v = x` is an assigned neighbor of
`v` whose value does not go with it, asked from the side of `v`.  The goal test, the list of
conflicted variables and the actions of the tree search all count conflicts; the value a variable
itself has in the assignment never counts, for no variable is its own neighbor
(`conflicts_insert_self`).
-/

namespace BinaryCsp

/-- Values for some of the variables. -/
abbrev Assignment (V T : Type) := PartialMap V T

/-- The assignment that an action leads to: the variable of the action takes its value. -/
def Assignment.result {V T : Type} [DecidableEq V] (a : Assignment V T) (action : V × T) :
    Assignment V T :=
  a.insert action.1 action.2

namespace Problem

variable {V T : Type} [DecidableEq V] (P : Problem V T)

/-- The assigned neighbors of a variable, with their values. -/
def assignedNeighbors (a : Assignment V T) (v : V) : List (V × T) :=
  (P.neighbors v).filterMap fun w => (a.get? w).map fun y => (w, y)

/-- How many of the given variables have a value that does not go with `v = x`. -/
def clashes (v : V) (assigned : List (V × T)) (x : T) : Nat :=
  assigned.countP fun e => !P.check v x e.1 e.2

/-- The number of assigned neighbors whose value does not go with `v = x`. -/
def conflicts (a : Assignment V T) (v : V) (x : T) : Nat := P.clashes v (P.assignedNeighbors a v) x

def conflicts? (a : Assignment V T) (v : V) (x : T) : Except (Fault V T) Nat :=
  P.ifDeclared v (P.conflicts a v x)

def isConflicted (a : Assignment V T) (v : V) : Bool :=
  match a.get? v with
  | some x => P.conflicts a v x != 0
  | none => false

/-- The assigned variables that have a conflict, in declaration order. -/
def conflicted (a : Assignment V T) : List V := P.vars.filter (P.isConflicted a)

/-- Whether the assignment gives every variable, and no other, a value without a conflict. -/
def goalTest (a : Assignment V T) : Bool :=
  a.size == P.vars.length &&
    P.vars.all fun v =>
      match a.get? v with
      | some x => P.conflicts a v x == 0
      | none => false

/-- The declared variables without a value, in declaration order. -/
def unassigned (a : Assignment V T) : List V := P.vars.filter fun v => !decide (v ∈ a)

/-- The values that extend the assignment by its first unassigned variable without a conflict. -/
def actions (a : Assignment V T) : List (V × T) :=
  match P.vars.find? fun v => !decide (v ∈ a) with
  | none => []
  | some v =>
    let assigned := P.assignedNeighbors a v
    ((P.domain v).filter fun x => P.clashes v assigned x == 0).map fun x => (v, x)

/-- A variable that may be assigned next. -/
abbrev Open (a : Assignment V T) := { v : V // v ∈ P.vars ∧ v ∉ a }

theorem assignedNeighbors_insert_self (a : Assignment V T) (v : V) (y : T) :
    P.assignedNeighbors (a.insert v y) v = P.assignedNeighbors a v := by
  have hv : v ∉ P.neighbors v := P.neighbors_irrefl v
  unfold assignedNeighbors
  generalize P.neighbors v = ws at hv
  induction ws with
  | nil => rfl
  | cons w ws ih =>
    obtain ⟨hw, hv⟩ := not_or.1 (hv ∘ List.mem_cons.2)
    rw [List.filterMap_cons, List.filterMap_cons, ih hv, PartialMap.get?_insert, if_neg hw]

theorem conflicts_insert_self (a : Assignment V T) (v : V) (x y : T) :
    P.conflicts (a.insert v y) v x = P.conflicts a v x := by
  rw [conflicts, assignedNeighbors_insert_self, conflicts]

end Problem

end BinaryCsp
