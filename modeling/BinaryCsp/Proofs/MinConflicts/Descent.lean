import BinaryCsp.Proofs.MinConflicts.Steps
import BinaryCsp.Proofs.Violations

/-!
# Min-conflicts never climbs

The second loop of the search is looked at step by step.  A `Climb` is a point of it, `Climb.next?`
the point after one more step, and `Visits` says which points a run comes to: the one with the
greedy assignment, and those that steps lead to.  These points are all there is of the loop, for
what is left of a run from a point is what is left from the next, and if there is no next point then
the run ends (`Climb.rest_cases`).

A step moves one variable, which has a conflict, to a value with the fewest conflicts
(`next?_cases`).  The value that the variable had is one to choose from, so its conflicts do not
become more; and with a symmetric predicate neither do the violated pairs
(`Problem.card_violated_insert`).  Hence no step climbs (`steps_descend`), and no point of a run
stands above its start (`Visits.card_violated_le`).
-/

namespace BinaryCsp

variable {V T σ : Type} [DecidableEq V]

namespace MinConflicts

/-! ## Points of the climb -/

/-- A point of the climb: how many steps are left, the assignment, and the world. -/
structure Climb (V T σ : Type) where
  left : Nat
  assignment : Assignment V T
  world : World V T σ

section Points

variable (P : Problem V T)

/-- The point after one more step, if one is made. -/
def Climb.next? (p : Climb V T σ) : Option (Climb V T σ) :=
  match p.left with
  | 0 => none
  | left + 1 =>
    match p.world.context.poll with
    | (true, _) => none
    | (false, c) =>
      match move P p.assignment { p.world with context := c } with
      | (none, _) => none
      | (some a, w) => some ⟨left, a, w⟩

/-- What is left of a run. -/
def Climb.rest (p : Climb V T σ) : Outcome V T × World V T σ :=
  climb P p.left p.assignment p.world

/-- The points that a run comes to once each variable has a value. -/
inductive Visits (m : MinConflicts) (P : Problem V T) (w : World V T σ) : Climb V T σ → Prop where
  | start {a : Assignment V T} {w' : World V T σ}
      (built : greedy P P.vars .empty w = (some a, w')) : Visits m P w ⟨m.maxSteps, a, w'⟩
  | next {p q : Climb V T σ} (visited : Visits m P w p) (step : p.next? P = some q) :
      Visits m P w q

end Points

variable {P : Problem V T} {m : MinConflicts} {w : World V T σ} {p q : Climb V T σ}

/-- **The points are all there is**: a run goes on at the next point, or ends without one, with the
assignment of the point or without a proof. -/
theorem Climb.rest_cases (P : Problem V T) (p : Climb V T σ) :
    (∃ q, p.next? P = some q ∧ p.rest P = q.rest P) ∨
      p.next? P = none ∧
        ((p.rest P).1 = .budgetExhausted ∨ (p.rest P).1 = .solved p.assignment) := by
  obtain ⟨_ | left, a, w⟩ := p
  · exact Or.inr ⟨rfl, Or.inl rfl⟩
  · simp only [next?, rest, climb]
    rcases w.context.poll with ⟨_ | _, c⟩
    · dsimp only
      rcases move P a ⟨w.state, c⟩ with ⟨_ | b, w'⟩
      · exact Or.inr ⟨rfl, Or.inr rfl⟩
      · exact Or.inl ⟨⟨left, b, w'⟩, rfl, rfl⟩
    · exact Or.inr ⟨rfl, Or.inl rfl⟩

lemma Visits.run_eq (h : m.Visits P w p) : m.run P w = p.rest P := by
  induction h with
  | start built =>
    rw [run, built]
    rfl
  | @next p q _ step ih =>
    rcases p.rest_cases P with ⟨q', hq', hrest⟩ | ⟨hnone, -⟩
    · cases hq'.symm.trans step
      exact ih.trans hrest
    · cases hnone.symm.trans step

/-! ## Steps -/

/-- **What a step can do** from a complete assignment: give a variable that has a conflict one of
the values with the fewest conflicts. -/
theorem next?_cases (h : P.IsComplete p.assignment) (step : p.next? P = some q) :
    ∃ v ∈ P.conflicted p.assignment, ∃ x ∈ P.domain v,
      (∀ y ∈ P.domain v, P.conflicts p.assignment v x ≤ P.conflicts p.assignment v y) ∧
      q.assignment = p.assignment.insert v x := by
  obtain ⟨_ | left, a, w⟩ := p
  · cases step
  · rw [Climb.next?] at step
    dsimp only at step
    generalize w.context.poll = polled at step
    obtain ⟨_ | _, c⟩ := polled
    · have hmoves := moves h (⟨w.state, c⟩ : World V T σ)
      dsimp only at step
      generalize move P a ⟨w.state, c⟩ = r at hmoves step
      cases hmoves with
      | rests rest => cases step
      | moves conflicted mem least g =>
        cases step
        exact ⟨_, conflicted, _, mem, least, rfl⟩
    · cases step

lemma Visits.isComplete (h : m.Visits P w p) : P.IsComplete p.assignment := by
  induction h with
  | start built => exact isComplete_of_greedy built
  | next visited step ih =>
    obtain ⟨v, hv, x, hx, -, heq⟩ := next?_cases ih step
    rw [heq]
    exact ih.insert (Problem.mem_conflicted.mp hv).1 hx

/-- A step moves one variable, which has a conflict, and violates no more pairs than before. -/
lemma exists_moved_of_next? (hsym : P.Symmetric) (h : P.IsComplete p.assignment)
    (step : p.next? P = some q) :
    ∃ v ∈ P.conflicted p.assignment,
      (∀ u, u ≠ v → q.assignment.get? u = p.assignment.get? u) ∧
      (P.violated q.assignment).card ≤ (P.violated p.assignment).card := by
  obtain ⟨v, hv, x, -, hleast, heq⟩ := next?_cases h step
  obtain ⟨-, y, hy, -⟩ := Problem.mem_conflicted.mp hv
  refine ⟨v, hv, fun u hu => ?_, ?_⟩
  · rw [heq, PartialMap.get?_insert, if_neg (Ne.symm hu)]
  · have hle : P.conflicts p.assignment v x ≤ P.conflicts p.assignment v y :=
      hleast y (h.within v y hy)
    have hcard := Problem.card_violated_insert hsym hy x
    rw [heq]
    omega

/-! ## Runs -/

/-- **No point of a run stands above its start**: the greedy assignment violates as many pairs, or
more. -/
theorem Visits.card_violated_le (hsym : P.Symmetric) {a : Assignment V T} {w' : World V T σ}
    (built : greedy P P.vars .empty w = (some a, w')) (h : m.Visits P w p) :
    (P.violated p.assignment).card ≤ (P.violated a).card := by
  induction h with
  | start built' =>
    cases built.symm.trans built'
    exact Nat.le_refl _
  | next visited step ih =>
    obtain ⟨-, -, -, hle⟩ := exists_moved_of_next? hsym visited.isComplete step
    exact hle.trans ih

/-- **Min-conflicts never climbs.**  Let the predicate be symmetric on neighbors.  Each step of a
run, once each variable has a value, changes the value of one variable at most, and that had a
conflict.  The unordered pairs of neighbors that are violated do not become more.  The run goes on
from the point after the step. -/
theorem steps_descend (m : MinConflicts) (P : Problem V T) (hsym : P.Symmetric) (w : World V T σ)
    {p q : Climb V T σ} (visited : m.Visits P w p) (step : p.next? P = some q) :
    (∃ v ∈ P.conflicted p.assignment,
      (∀ u, u ≠ v → q.assignment.get? u = p.assignment.get? u) ∧
      (P.violated q.assignment).card ≤ (P.violated p.assignment).card) ∧
    m.run P w = q.rest P :=
  ⟨exists_moved_of_next? hsym visited.isComplete step, (visited.next step).run_eq⟩

/-- Two numbers in ascending order, and the item that stands first is drawn: the first number is too
large, and one step puts it right. -/
theorem steps_descend_ascending :
    let P := Problem.ascending [5, 1] [3]
    let w : World Bool Nat Unit := ⟨.initial, .fresh ⟨fun k _ => (0, k), fun _ _ h => h, 0⟩ ()⟩
    ∃ p q : Climb Bool Nat Unit, (⟨1⟩ : MinConflicts).Visits P w p ∧ p.next? P = some q ∧
      p.assignment.entries = [(false, 5), (true, 3)] ∧
      q.assignment.entries = [(false, 1), (true, 3)] ∧
      (∃ v ∈ P.conflicted p.assignment,
        (∀ u, u ≠ v → q.assignment.get? u = p.assignment.get? u) ∧
        (P.violated q.assignment).card ≤ (P.violated p.assignment).card) := by
  intro P w
  let built := greedy P P.vars .empty w
  let p : Climb Bool Nat Unit := ⟨1, built.1.getD .empty, built.2⟩
  have hsome : built.1.isSome = true := by decide +kernel
  have hfirst : built.1 = some (built.1.getD .empty) := by
    rw [← Option.get_eq_getD (h := hsome), Option.some_get]
  have visited : (⟨1⟩ : MinConflicts).Visits P w p := .start (Prod.ext hfirst rfl)
  have hp : p.assignment.entries = [(false, 5), (true, 3)] := by decide +kernel
  have hnext : (p.next? P).map (fun q => q.assignment.entries)
      = some [(false, 1), (true, 3)] := by decide +kernel
  obtain ⟨q, step, hq⟩ := Option.map_eq_some_iff.mp hnext
  exact ⟨p, q, visited, step, hp, hq,
    (steps_descend ⟨1⟩ P (Problem.symmetric_ascending _ _) w visited step).1⟩

end MinConflicts

end BinaryCsp
