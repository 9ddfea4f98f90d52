import BinaryCsp.Search.MinConflicts
import BinaryCsp.State
import Mathlib.Tactic.Common

/-!
# Min-conflicts asks about declared variables only

Each question about a variable, and each assignment, is refused if the variable is not declared
(`Problem.domain?`, `Problem.conflicts?`, `State.assign`).  `run?` is the search with every question
asked in this way, so that it stops at the first refusal.  It never does, and comes to the same end
in the same world as the search that does not ask (`run?_eq_ok`), for the variables that it settles
are declared: they are the list of all, or are found conflicted.
-/

namespace BinaryCsp

open BinaryCsp.Random (Chooser)

variable {V T σ : Type}

/-! ## Questions that are all answered -/

section Answered

variable {α β ε : Type}

lemma mapM_eq_ok {f : α → Except ε β} {g : α → β} {l : List α} (h : ∀ x ∈ l, f x = .ok (g x)) :
    l.mapM f = .ok (l.map g) := by
  induction l with
  | nil => rfl
  | cons x l ih =>
    rw [List.mapM_cons, h x List.mem_cons_self, ih fun y hy => h y (List.mem_cons_of_mem x hy)]
    rfl

lemma filterAuxM_eq_ok {f : α → Except ε Bool} {g : α → Bool} {l : List α}
    (h : ∀ x ∈ l, f x = .ok (g x)) (acc : List α) :
    l.filterAuxM f acc = .ok ((l.filter g).reverse ++ acc) := by
  induction l generalizing acc with
  | nil => rfl
  | cons x l ih =>
    have hrest := fun acc => ih (fun y hy => h y (List.mem_cons_of_mem x hy)) acc
    have hstep : (x :: l).filterAuxM f acc = l.filterAuxM f (cond (g x) (x :: acc) acc) := by
      rw [List.filterAuxM, h x List.mem_cons_self]
      rfl
    rw [hstep, hrest, List.filter_cons]
    cases g x <;> simp

lemma filterM_eq_ok {f : α → Except ε Bool} {g : α → Bool} {l : List α}
    (h : ∀ x ∈ l, f x = .ok (g x)) : l.filterM f = .ok (l.filter g) := by
  rw [List.filterM, filterAuxM_eq_ok h []]
  simp [bind, Except.bind, pure, Except.pure]

end Answered

/-! ## Drawing from items with their keys -/

lemma leastBy_keyed {α : Type} (key : α → Nat) (l : List α) :
    leastBy Prod.fst (l.map fun x => (key x, x)) = (leastBy key l).map fun x => (key x, x) := by
  simp only [leastBy, List.map_map, Function.comp_def]
  cases (l.map key).min? with
  | none => rfl
  | some m => simp [List.filter_map, Function.comp_def]

lemma Context.choose_map {α β : Type} (c : Context σ) (f : α → β) (l : List α) :
    c.choose (l.map f) = ((c.choose l).1.map f, (c.choose l).2) := by
  cases l with
  | nil => rfl
  | cons x l =>
    simp only [choose, List.map_cons, Chooser.choose, List.length_cons, List.length_map]
    rw [← List.map_cons, List.getElem?_map]

variable [DecidableEq V]

/-! ## The search that asks -/

/-- The variables that have a conflict, each of them asked about. -/
def Problem.conflicted? (P : Problem V T) (a : Assignment V T) : Except (Fault V T) (List V) :=
  P.vars.filterM fun v =>
    match a.get? v with
    | some x => (P.conflicts? a v x).map (· != 0)
    | none => .ok false

namespace MinConflicts

section Asking

variable (P : Problem V T)

def settle? (v : V) (a : Assignment V T) (w : World V T σ) :
    Except (Fault V T) (Option (Assignment V T) × World V T σ) := do
  let xs ← P.domain? v
  let keyed ← xs.mapM fun x => (P.conflicts? a v x).map fun n => (n, x)
  match w.context.choose (leastBy Prod.fst keyed) with
  | (none, c) => return (none, { w with context := c })
  | (some e, c) =>
    let (a, s) ← w.state.assign P a v e.2
    return (some a, ⟨s, c⟩)

def greedy? : List V → Assignment V T → World V T σ →
    Except (Fault V T) (Option (Assignment V T) × World V T σ)
  | [], a, w => return (some a, w)
  | v :: vs, a, w => do
    match ← settle? P v a w with
    | (none, w) => return (none, w)
    | (some a, w) => greedy? vs a w

def move? (a : Assignment V T) (w : World V T σ) :
    Except (Fault V T) (Option (Assignment V T) × World V T σ) := do
  let conflicted ← P.conflicted? a
  match w.context.choose conflicted with
  | (none, c) => return (none, { w with context := c })
  | (some v, c) =>
    let (settled, w) ← settle? P v a { w with context := c }
    return (some (settled.getD a), countStep w)

def climb? : Nat → Assignment V T → World V T σ → Except (Fault V T) (Outcome V T × World V T σ)
  | 0, _, w => return (.budgetExhausted, w)
  | steps + 1, a, w =>
    match w.context.poll with
    | (true, c) => return (.budgetExhausted, { w with context := c })
    | (false, c) => do
      match ← move? P a { w with context := c } with
      | (none, w) => return (.solved a, w)
      | (some a, w) => climb? steps a w

/-- The search, stopped at the first refusal. -/
def run? (m : MinConflicts) (w : World V T σ) :
    Except (Fault V T) (Outcome V T × World V T σ) := do
  match ← greedy? P P.vars .empty w with
  | (none, w) => return (.unsatisfiable, w)
  | (some a, w) => climb? P m.maxSteps a w

end Asking

/-! ## It is refused nothing -/

variable {P : Problem V T}

lemma conflicts?_eq_ok {v : V} (hv : v ∈ P.vars) (a : Assignment V T) (x : T) :
    P.conflicts? a v x = .ok (P.conflicts a v x) := if_pos hv

lemma conflicted?_eq_ok (a : Assignment V T) : P.conflicted? a = .ok (P.conflicted a) := by
  refine filterM_eq_ok fun v hv => ?_
  rw [Problem.isConflicted]
  cases a.get? v with
  | none => rfl
  | some x =>
    dsimp only
    rw [conflicts?_eq_ok hv]
    rfl

/-- **A declared variable is settled without a refusal.** -/
theorem settle?_eq_ok {v : V} (hv : v ∈ P.vars) (a : Assignment V T) (w : World V T σ) :
    settle? P v a w = .ok (settle P v a w) := by
  have hdomain : P.domain? v = .ok (P.domain v) := if_pos hv
  have hkeyed : ((P.domain v).mapM fun x => (P.conflicts? a v x).map fun n => (n, x))
      = .ok ((P.domain v).map fun x => (P.conflicts a v x, x)) :=
    mapM_eq_ok fun x _ => by
      rw [conflicts?_eq_ok hv]
      rfl
  have hassign : ∀ x, w.state.assign P a v x = .ok (a.insert v x, w.state.countAssign) :=
    fun x => if_pos hv
  have hdrawn : w.context.choose
      (leastBy Prod.fst ((P.domain v).map fun x => (P.conflicts a v x, x)))
        = ((w.context.chooseLeast (P.conflicts a v) (P.domain v)).1.map fun x =>
            (P.conflicts a v x, x),
          (w.context.chooseLeast (P.conflicts a v) (P.domain v)).2) := by
    rw [leastBy_keyed, Context.choose_map]
    rfl
  have hsettle : settle P v a w =
      match w.context.chooseLeast (P.conflicts a v) (P.domain v) with
      | (none, c) => (none, { w with context := c })
      | (some x, c) => (some (a.insert v x), ⟨w.state.countAssign, c⟩) := rfl
  rw [settle?, hdomain, hsettle]
  simp only [bind, Except.bind, hkeyed, hdrawn]
  rcases w.context.chooseLeast (P.conflicts a v) (P.domain v) with ⟨_ | x, c⟩
  · rfl
  · simp only [Option.map_some, hassign]
    rfl

lemma greedy?_eq_ok {vs : List V} (hvs : ∀ v ∈ vs, v ∈ P.vars) (a : Assignment V T)
    (w : World V T σ) : greedy? P vs a w = .ok (greedy P vs a w) := by
  induction vs generalizing a w with
  | nil => rfl
  | cons v vs ih =>
    obtain ⟨hv, hrest⟩ := List.forall_mem_cons.mp hvs
    rw [greedy?, settle?_eq_ok hv, greedy]
    rcases settle P v a w with ⟨_ | b, w'⟩
    · rfl
    · exact ih hrest b w'

lemma move?_eq_ok (a : Assignment V T) (w : World V T σ) :
    move? P a w = .ok (move P a w) := by
  rw [move?, conflicted?_eq_ok, move]
  simp only [bind, Except.bind]
  rcases hdrawn : w.context.choose (P.conflicted a) with ⟨_ | v, c⟩
  · rfl
  · have hmem : v ∈ P.conflicted a := Chooser.choose_mem (congrArg Prod.fst hdrawn)
    have hv : v ∈ P.vars := (List.mem_filter.mp hmem).1
    simp only [settle?_eq_ok hv]
    rfl

lemma climb?_eq_ok (steps : Nat) (a : Assignment V T) (w : World V T σ) :
    climb? P steps a w = .ok (climb P steps a w) := by
  induction steps generalizing a w with
  | zero => rfl
  | succ steps ih =>
    rw [climb?, climb]
    rcases w.context.poll with ⟨_ | _, c⟩
    · simp only [move?_eq_ok, bind, Except.bind]
      rcases move P a ⟨w.state, c⟩ with ⟨_ | b, w'⟩
      · rfl
      · exact ih b w'
    · rfl

/-- **The search is refused nothing.** -/
theorem run?_eq_ok (m : MinConflicts) (w : World V T σ) : run? P m w = .ok (m.run P w) := by
  rw [run?, greedy?_eq_ok fun _ hv => hv, run]
  simp only [bind, Except.bind]
  rcases greedy P P.vars .empty w with ⟨_ | a, w'⟩
  · rfl
  · exact climb?_eq_ok m.maxSteps a w'

end MinConflicts

end BinaryCsp
