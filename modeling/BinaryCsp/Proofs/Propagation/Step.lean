import BinaryCsp.Proofs.Loop
import BinaryCsp.Propagation
import Mathlib.Tactic.Common

/-!
# What one step of a propagation pass can do

The queue of arcs is looked at as a set here: `mem_push`, `mem_remove`, `mem_of_pop` and
`not_mem_of_pop_eq_none` say what each of its operations does to it, and `Pass.mem_requeue` and
`Pass.mem_shrink` what the parts of a visit do.

`Pass.step_cases` is the one statement about `Pass.step`: a step finds the queue empty, or it takes
an arc off the queue and then either stops, if the limit says so, or visits that arc.
`Pass.run_induction` and `Pass.run_preserves` lift what one step preserves to a whole pass.  A pass
is a loop of its steps (`Pass.run_eq_step`).
-/

namespace BinaryCsp

/-! ## The queue as a set -/

namespace ArcQueue

variable {V : Type} [DecidableEq V]

omit [DecidableEq V] in
lemma mem_iff {q : ArcQueue V} {arc : Arc V} : arc ∈ q ↔ arc ∈ q.numbers := Iff.rfl

omit [DecidableEq V] in
lemma not_mem_empty (arc : Arc V) : arc ∉ (empty : ArcQueue V) := List.not_mem_nil

@[simp] lemma mem_push {q : ArcQueue V} {priority : Nat} {arc e : Arc V} :
    e ∈ q.push priority arc ↔ e = arc ∨ e ∈ q := by
  rw [push]
  split
  · rename_i h
    constructor
    · exact Or.inr
    · rintro (rfl | he)
      · exact h
      · exact he
  · rw [mem_iff, PartialMap.mem_insert, ← mem_iff, eq_comm]

@[simp] lemma mem_remove {q : ArcQueue V} {arc e : Arc V} :
    e ∈ q.remove arc ↔ e ≠ arc ∧ e ∈ q := by
  rw [remove, mem_iff, PartialMap.mem_erase, ← mem_iff, ne_comm]

/-- **Popping takes one arc out of the set**, and no other. -/
theorem mem_of_pop {σ : Type} {ask : Arc V → σ → Nat × σ} {q rest : ArcQueue V} {s t : σ}
    {arc : Arc V} (h : q.pop ask s = (some (arc, rest), t)) :
    arc ∈ q ∧ ∀ e, e ∈ rest ↔ e ≠ arc ∧ e ∈ q := by
  fun_induction pop ask q s with
  | case1 => cases h
  | case2 q s entry heap front live priority s' hask lower ih => exact ih h
  | case3 q s entry heap front live priority s' hask lower =>
    cases h
    exact ⟨live.mem, fun e => mem_remove⟩
  | case4 q s entry heap front idle ih => exact ih h

/-- A heap without entries leaves no arc queued. -/
theorem not_mem_of_pop_eq_none {σ : Type} {ask : Arc V → σ → Nat × σ} {q : ArcQueue V} {s t : σ}
    (h : q.pop ask s = (none, t)) (arc : Arc V) : arc ∉ q := by
  fun_induction pop ask q s with
  | case1 q s front =>
    intro harc
    obtain ⟨a, ha, -⟩ := List.mem_map.mp harc
    obtain ⟨e, he, -⟩ := q.entered a ha
    exact Heap.not_mem_of_pop?_eq_none front e he
  | case2 q s entry heap front live priority s' hask lower ih => exact ih h
  | case3 => cases h
  | case4 q s entry heap front idle ih => exact ih h

end ArcQueue

/-! ## The parts of a visit -/

namespace Pass

variable {V T : Type} [DecidableEq V]

/-- What is left of a pass that keeps everything but its queue, its clock and its limit. -/
def taken (p : Pass V T) (rest : ArcQueue V) (clock : Nat) : Pass V T :=
  { p with queue := rest, clock := clock, limit := p.limit.poll.2 }

/-- A pass that agrees with another in all that revising arcs is about. -/
structure SameDomains (p q : Pass V T) : Prop where
  domains : q.domains = p.domains
  removed : q.removed = p.removed
  prunings : q.prunings = p.prunings
  limit : q.limit = p.limit

omit [DecidableEq V] in
lemma sameDomains_countChecks (p : Pass V T) (n : Nat) : SameDomains p (p.countChecks n) :=
  ⟨rfl, rfl, rfl, rfl⟩

section Requeue

variable (P : Problem V T) (order : ArcOrder V T)

lemma foldl_enqueue (arcs : List (Arc V)) (p : Pass V T) :
    SameDomains p (arcs.foldl (enqueue order) p) ∧
      ∀ e, e ∈ (arcs.foldl (enqueue order) p).queue ↔ e ∈ arcs ∨ e ∈ p.queue := by
  induction arcs generalizing p with
  | nil => exact ⟨⟨rfl, rfl, rfl, rfl⟩, by simp⟩
  | cons arc arcs ih =>
    obtain ⟨hsame, hmem⟩ := ih (p.enqueue order arc)
    refine ⟨⟨hsame.domains, hsame.removed, hsame.prunings, hsame.limit⟩, fun e => ?_⟩
    rw [List.foldl_cons, hmem e, enqueue, ArcQueue.mem_push, List.mem_cons, or_left_comm,
      or_assoc]

lemma requeue_eq_foldl (v except : V) (p : Pass V T) :
    p.requeue P order v except
      = (((P.neighbors v).filter fun w => !decide (w = except)).map fun w => (w, v)).foldl
          (enqueue order) p := by
  rw [List.foldl_map]
  rfl

lemma sameDomains_requeue (v except : V) (p : Pass V T) :
    SameDomains p (p.requeue P order v except) := by
  rw [requeue_eq_foldl]
  exact (foldl_enqueue order _ p).1

lemma mem_requeue {v except : V} {p : Pass V T} {e : Arc V} :
    e ∈ (p.requeue P order v except).queue
      ↔ (e.2 = v ∧ e.1 ∈ P.neighbors v ∧ e.1 ≠ except) ∨ e ∈ p.queue := by
  rw [requeue_eq_foldl, (foldl_enqueue order _ p).2 e]
  refine or_congr_left ?_
  constructor
  · intro h
    obtain ⟨w, hw, rfl⟩ := List.mem_map.mp h
    exact ⟨rfl, by simpa using List.mem_filter.mp hw⟩
  · rintro ⟨rfl, hn, he⟩
    exact List.mem_map.mpr ⟨e.1, List.mem_filter.mpr ⟨hn, by simpa using he⟩, rfl⟩

end Requeue

variable (P : Problem V T) (order : ArcOrder V T)

/-- A domain that is not shortened by what is taken out stays as it is. -/
lemma left_eq_of_not_shortens {p : Pass V T} {v : V} {left : List T}
    (hsub : left.Sublist (p.domains.listAt v)) (h : ¬ p.shortens v left = true) :
    left = p.domains.listAt v := by
  refine hsub.eq_of_length_le ?_
  have hle : ¬ left.length < (p.domains.listAt v).length := by simpa [shortens] using h
  omega

/-- After a shrinking the domain is what was left of it, and no other has changed. -/
lemma listAt_shrink {p : Pass V T} {v except : V} {left gone : List T}
    (hsub : left.Sublist (p.domains.listAt v)) (w : V) :
    (p.shrink P order v except left gone).domains.listAt w
      = if v = w then left else p.domains.listAt w := by
  rw [shrink]
  split
  · rw [(sameDomains_requeue P order v except _).domains]
    exact PartialMap.listAt_insert _ _ _ _
  · rename_i h
    split
    · rename_i hvw
      rw [left_eq_of_not_shortens hsub h, hvw]
    · rfl

lemma mem_shrink {p : Pass V T} {v except : V} {left gone : List T} {e : Arc V} :
    e ∈ (p.shrink P order v except left gone).queue
      ↔ (p.shortens v left = true ∧ e.2 = v ∧ e.1 ∈ P.neighbors v ∧ e.1 ≠ except) ∨
        e ∈ p.queue := by
  rw [shrink]
  split
  · rename_i h
    rw [mem_requeue]
    simp only [h, true_and]
    rfl
  · rename_i h
    rw [Bool.not_eq_true] at h
    simp [h]

lemma limit_shrink (p : Pass V T) (v except : V) (left gone : List T) :
    (p.shrink P order v except left gone).limit = p.limit := by
  rw [shrink]
  split
  · exact (sameDomains_requeue P order v except _).limit
  · rfl

end Pass

/-! ## Steps -/

section Steps

variable {V T : Type}

/-- The pass that a visit leads to or ends with. -/
def Visit.pass : Visit V T → Pass V T
  | .goesOn p => p
  | .ends _ p => p

namespace Pass

variable [DecidableEq V]

/-- The pass that starts with some arcs has removed nothing yet. -/
lemma start_frame (how : Propagator V T) (D : Domains V T) (arcs : List (Arc V)) (limit : Limit) :
    (start how D arcs limit).domains = D ∧ (start how D arcs limit).removed = [] ∧
      (start how D arcs limit).prunings = 0 ∧ (start how D arcs limit).limit = limit := by
  obtain ⟨h, -⟩ := foldl_enqueue how.order arcs ⟨D, [], .empty, 0, limit, 0, 0⟩
  exact ⟨h.domains, h.removed, h.prunings, h.limit⟩

lemma mem_start (how : Propagator V T) (D : Domains V T) (arcs : List (Arc V)) (limit : Limit)
    (e : Arc V) : e ∈ (start how D arcs limit).queue ↔ e ∈ arcs := by
  obtain ⟨-, h⟩ := foldl_enqueue how.order arcs ⟨D, [], .empty, 0, limit, 0, 0⟩
  rw [start, h e]
  exact or_iff_left (ArcQueue.not_mem_empty e)

lemma next?_cases (how : Propagator V T) (p : Pass V T) :
    (∃ clock, p.next? how = (none, { p with clock := clock }) ∧ ∀ e, e ∉ p.queue) ∨
      ∃ arc rest clock, p.next? how = (some arc, { p with queue := rest, clock := clock }) ∧
        arc ∈ p.queue ∧ ∀ e, e ∈ rest ↔ e ≠ arc ∧ e ∈ p.queue := by
  rw [next?]
  split
  · rename_i clock hpop
    exact Or.inl ⟨clock, rfl, ArcQueue.not_mem_of_pop_eq_none hpop⟩
  · rename_i arc rest clock hpop
    obtain ⟨hmem, hrest⟩ := ArcQueue.mem_of_pop hpop
    exact Or.inr ⟨arc, rest, clock, rfl, hmem, hrest⟩

variable [DecidableEq T] {P : Problem V T} {how : Propagator V T}

/-- **What a step can do**: end on an empty queue, or take an arc off the queue and then stop or
visit that arc, as the limit says. -/
theorem step_cases (P : Problem V T) (how : Propagator V T) (p : Pass V T) :
    (∃ clock, p.step P how = .ends (.ok .consistent) { p with clock := clock } ∧
      ∀ e, e ∉ p.queue) ∨
    ∃ arc rest clock, arc ∈ p.queue ∧ (∀ e, e ∈ rest ↔ e ≠ arc ∧ e ∈ p.queue) ∧
      p.step P how = if p.limit.poll.1 then .ends (.ok .interrupted) (p.taken rest clock)
        else (p.taken rest clock).visit P how arc := by
  rcases next?_cases how p with ⟨clock, hnext, hempty⟩ | ⟨arc, rest, clock, hnext, hmem, hrest⟩
  · refine Or.inl ⟨clock, ?_, hempty⟩
    rw [step, hnext]
  · refine Or.inr ⟨arc, rest, clock, hmem, hrest, ?_⟩
    rw [step, hnext]
    simp only [poll]
    cases p.limit.poll.1 <;> rfl

/-- A step that goes on has visited an arc of the queue. -/
lemma visit_of_goesOn {p q : Pass V T} (h : p.step P how = .goesOn q) :
    ∃ arc rest clock, arc ∈ p.queue ∧ (∀ e, e ∈ rest ↔ e ≠ arc ∧ e ∈ p.queue) ∧
      p.limit.poll.1 = false ∧ (p.taken rest clock).visit P how arc = .goesOn q := by
  rcases step_cases P how p with ⟨clock, hend, -⟩ | ⟨arc, rest, clock, hmem, hrest, hstep⟩
  · cases hend.symm.trans h
  · rw [hstep] at h
    split at h
    · cases h
    · rename_i hpoll
      exact ⟨arc, rest, clock, hmem, hrest, by simpa using hpoll, h⟩

/-- A step ends on an empty queue, at the limit, or with the visit of an arc of the queue. -/
lemma cases_of_ends {p q : Pass V T} {answer : Except (Fault V T) Verdict}
    (h : p.step P how = .ends answer q) :
    (answer = .ok .consistent ∧ (∀ e, e ∉ p.queue) ∧ q.domains = p.domains ∧
        q.limit = p.limit) ∨
      ∃ arc rest clock, arc ∈ p.queue ∧ (∀ e, e ∈ rest ↔ e ≠ arc ∧ e ∈ p.queue) ∧
        ((p.limit.poll.1 = true ∧ answer = .ok .interrupted ∧ q = p.taken rest clock) ∨
          p.limit.poll.1 = false ∧ (p.taken rest clock).visit P how arc = .ends answer q) := by
  rcases step_cases P how p with ⟨clock, hend, hempty⟩ | ⟨arc, rest, clock, hmem, hrest, hstep⟩
  · cases hend.symm.trans h
    exact Or.inl ⟨rfl, hempty, rfl, rfl⟩
  · rw [hstep] at h
    refine Or.inr ⟨arc, rest, clock, hmem, hrest, ?_⟩
    split at h
    · rename_i hpoll
      cases h
      exact Or.inl ⟨hpoll, rfl, rfl⟩
    · rename_i hpoll
      exact Or.inr ⟨by simpa using hpoll, h⟩

/-- **What every step preserves holds of a whole pass**: an invariant that a step which goes on
keeps, and from which a step that ends reaches its goal. -/
theorem run_induction {I : Pass V T → Prop} {R : Except (Fault V T) Verdict → Pass V T → Prop}
    (goesOn : ∀ p q, I p → p.step P how = .goesOn q → I q)
    (ends : ∀ p answer q, I p → p.step P how = .ends answer q → R answer q)
    {p : Pass V T} (h : I p) : R (p.run P how).1 (p.run P how).2 := by
  fun_induction run P how p with
  | case1 p answer q hnext => exact ends p answer q h hnext
  | case2 p q hnext ih => exact ih (goesOn p q h hnext)

/-- What every step preserves, whether it goes on or ends, holds of the pass that is left. -/
theorem run_preserves {I : Pass V T → Prop} (step : ∀ p, I p → I (p.step P how).pass)
    {p : Pass V T} (h : I p) : I (p.run P how).2 := by
  refine run_induction (R := fun _ => I) (fun q r hq hstep => ?_) (fun q answer r hq hstep => ?_) h
  all_goals
    have hnext := step q hq
    rwa [hstep] at hnext

end Pass

/-! ## A pass as a loop -/

/-- A visit as a round of a loop, which goes on from the pass or from something made of it. -/
def Visit.round {S : Type} (state : Pass V T → S) :
    Visit V T → Round S (Except (Fault V T) Verdict × Pass V T)
  | .goesOn p => .again (state p)
  | .ends answer p => .done (answer, p)

namespace Pass

variable [DecidableEq V] [DecidableEq T] (P : Problem V T) (how : Propagator V T) (p : Pass V T)

lemma run_eq_step : p.run P how = ((p.step P how).round id).resume (run P how) := by
  rw [run]
  split <;> rename_i hstep <;> rw [hstep] <;> rfl

/-- A pass that is given can be run step by step. -/
lemma read_run {B : Type} (read : Except (Fault V T) Verdict × Pass V T → B) (n : Nat) {b : B}
    (h : (Round.after (fun _ p => (p.step P how).round id) p n).answer?.map read = some b) :
    read (p.run P how) = b :=
  Round.read_of_after (run_eq_step P how) h

end Pass

end Steps

end BinaryCsp
