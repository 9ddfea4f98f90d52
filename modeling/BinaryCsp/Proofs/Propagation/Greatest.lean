import BinaryCsp.Proofs.Propagation.Closure

/-!
# Propagation finds the greatest arc-consistent family

`Problem.greatest P D` is the union of all arc-consistent families that lie within the domains `D`;
it is one itself.  No value of it ever goes (`Propagator.keeps_supported`).  What a pass leaves when
it answers that the domains are consistent is arc consistent, since nothing is queued any more
(`Pass.Settling`), so it is the greatest family: `Propagator.choices_eq_filter_greatest`.

`ac3b` also notices an empty domain, in whatever order arcs come up (`Pass.inhabited_run`).
-/

namespace BinaryCsp

variable {V T : Type} [DecidableEq V]

/-! ## The greatest arc-consistent family -/

namespace Problem

/-- Each value of the family goes with a value of each neighbor. -/
def ArcConsistent (P : Problem V T) (F : V → T → Prop) : Prop :=
  ∀ v, ∀ w ∈ P.neighbors v, ∀ x, F v x → ∃ y, F w y ∧ P.check v x w y = true

/-- The greatest arc-consistent family within the domains: the union of all. -/
def greatest (P : Problem V T) (D : Domains V T) (v : V) (x : T) : Prop :=
  ∃ F, P.ArcConsistent F ∧ D.Holds F ∧ F v x

variable (P : Problem V T)

lemma arcConsistent_greatest (D : Domains V T) : P.ArcConsistent (P.greatest D) := by
  rintro v w hw x ⟨F, hF, hin, hx⟩
  obtain ⟨y, hy, hc⟩ := hF v w hw x hx
  exact ⟨y, ⟨F, hF, hin, hy⟩, hc⟩

lemma holds_greatest (D : Domains V T) : D.Holds (P.greatest D) := by
  rintro v x ⟨F, -, hin, hx⟩
  exact hin v x hx

variable {P}

/-- With a symmetric predicate it does not matter which of the two variables is asked first. -/
lemma ArcConsistent.mutuallySupported {F : V → T → Prop} (hF : P.ArcConsistent F)
    (hsym : P.Symmetric) : P.MutuallySupported F := by
  intro v w hw x hx
  obtain ⟨y, hy, hc⟩ := hF v w hw x hx
  exact ⟨y, hy, hc, (hsym v w hw x y).symm.trans hc⟩

end Problem

namespace Pass

variable [DecidableEq T] {P : Problem V T} {how : Propagator V T} {p : Pass V T}

/-! ## Passes -/

/-- The state of a pass that started with the domains `D`: all arcs off the queue are in order, and
the domains are what some test has left of `D`. -/
structure Settling (P : Problem V T) (D : Domains V T) (p : Pass V T) : Prop where
  queue : p.QueueOnNeighbors P
  consistent : p.OffQueue P P.ConsistentAt
  filtered : ∀ v, ∃ keep : T → Bool, p.domains.listAt v = (D.listAt v).filter keep

/-- A step leaves an arc queued or in order. -/
lemma consistentAt_step (hsym : P.Symmetric) (hq : p.QueueOnNeighbors P) {e : Arc V}
    (he : e.2 ∈ P.neighbors e.1) (h : e ∉ p.queue → P.ConsistentAt p.domains e) {q : Pass V T}
    (hstep : p.step P how = .goesOn q) (hoff : e ∉ q.queue) : P.ConsistentAt q.domains e := by
  obtain ⟨arc, rest, clock, hmem, hrest, -, hvisit⟩ := visit_of_goesOn hstep
  refine consistentAt_visit hsym (hq arc hmem) hvisit he (fun hne hoff' => ?_) hoff
  exact h fun hin => hoff' ((hrest e).mpr ⟨hne, hin⟩)

lemma Settling.step (hsym : P.Symmetric) {D : Domains V T} (h : p.Settling P D) {q : Pass V T}
    (hstep : p.step P how = .goesOn q) : q.Settling P D := by
  refine ⟨queueOnNeighbors_step h.queue hstep,
    fun e he => consistentAt_step hsym h.queue he (h.consistent e he) hstep, fun v => ?_⟩
  obtain ⟨arc, rest, clock, hmem, -, -, hvisit⟩ := visit_of_goesOn hstep
  obtain ⟨keep, hkeep⟩ := h.filtered v
  obtain ⟨keep', hkeep'⟩ := filtered_visit hsym (h.queue arc hmem) hvisit v
  refine ⟨fun x => keep' x && keep x, ?_⟩
  rw [hkeep', show (p.taken rest clock).domains.listAt v = _ from hkeep, List.filter_filter]

/-- A pass between neighbors is consistent at its end only if its queue was empty there, so an
invariant of its steps holds of an empty queue. -/
theorem of_run_eq_consistent {I : Pass V T → Prop}
    (hI : ∀ p q, p.QueueOnNeighbors P → I p → p.step P how = .goesOn q → I q)
    (hq : p.QueueOnNeighbors P) (h : I p) (hok : (p.run P how).1 = .ok .consistent) :
    ∃ q, I q ∧ (∀ e, e ∉ q.queue) ∧ (p.run P how).2.domains = q.domains := by
  refine run_induction (I := fun p => p.QueueOnNeighbors P ∧ I p)
    (R := fun answer r => answer = .ok .consistent →
      ∃ q, I q ∧ (∀ e, e ∉ q.queue) ∧ r.domains = q.domains)
    (fun p q h hstep => ⟨queueOnNeighbors_step h.1 hstep, hI p q h.1 h.2 hstep⟩) ?_ ⟨hq, h⟩ hok
  rintro q answer r ⟨hqueue, hq⟩ hstep rfl
  rcases cases_of_ends hstep with ⟨-, hempty, hD, -⟩ | ⟨arc, rest, clock, hmem, -, hlast⟩
  · exact ⟨q, hq, hempty, hD⟩
  · rcases hlast with ⟨-, hans, -⟩ | ⟨-, hvisit⟩
    · cases hans
    · -- a visit between neighbors ends with nothing but a contradiction
      have hF : P.MutuallySupported fun _ (_ : T) => False := fun _ _ _ _ hx => hx.elim
      have hends := (holds_visit how hF (hqueue arc hmem) (p := q.taken rest clock)
        (fun _ _ hx => hx.elim)).2
      cases (hends _ _ hvisit).1

/-- At the end of a consistent pass an arc is in order, if it was queued or in order before. -/
theorem consistentAt_run (hsym : P.Symmetric) (hq : p.QueueOnNeighbors P) {e : Arc V}
    (he : e.2 ∈ P.neighbors e.1) (h : e ∉ p.queue → P.ConsistentAt p.domains e)
    (hok : (p.run P how).1 = .ok .consistent) : P.ConsistentAt (p.run P how).2.domains e := by
  obtain ⟨q, hend, hempty, hD⟩ := of_run_eq_consistent
    (I := fun p => e ∉ p.queue → P.ConsistentAt p.domains e)
    (fun _ _ hq h hstep => consistentAt_step hsym hq he h hstep) hq h hok
  rw [hD]
  exact hend (hempty e)

/-- **At the end of a consistent pass all arcs are in order.** -/
theorem settled_run (hsym : P.Symmetric) {D : Domains V T} (h : p.Settling P D)
    (hok : (p.run P how).1 = .ok .consistent) :
    (∀ e : Arc V, e.2 ∈ P.neighbors e.1 → P.ConsistentAt (p.run P how).2.domains e) ∧
      ∀ v, ∃ keep : T → Bool, (p.run P how).2.domains.listAt v = (D.listAt v).filter keep := by
  obtain ⟨q, hq, hempty, hD⟩ := of_run_eq_consistent (I := fun p => p.Settling P D)
    (fun _ _ _ h hstep => h.step hsym hstep) h.queue h hok
  rw [hD]
  exact ⟨fun e he => hq.consistent e he (hempty e), hq.filtered⟩

/-- At the end of a consistent pass of `ac3b` over all arcs no variable with a neighbor is without
values. -/
theorem inhabited_run (hsym : P.Symmetric) (hm : how.method = .ac3b) (hq : p.QueueOnNeighbors P)
    (hp : p.OffQueue P fun D e => D.listAt e.1 ≠ []) (hok : (p.run P how).1 = .ok .consistent)
    (v : V) (hv : P.neighbors v ≠ []) : (p.run P how).2.domains.listAt v ≠ [] := by
  have hstep : ∀ p q : Pass V T, p.QueueOnNeighbors P →
      (p.OffQueue P fun D e => D.listAt e.1 ≠ []) → p.step P how = .goesOn q →
      q.OffQueue P fun D e => D.listAt e.1 ≠ [] := by
    intro p q hq hp hstep
    obtain ⟨arc, rest, clock, hmem, hrest, -, hvisit⟩ := visit_of_goesOn hstep
    exact inhabited_visit hsym (hq arc hmem) hvisit hm (hp.but rfl hrest)
  obtain ⟨q, hinh, hempty, hD⟩ := of_run_eq_consistent hstep hq hp hok
  obtain ⟨w, hw⟩ := List.exists_mem_of_ne_nil _ hv
  rw [hD]
  exact hinh (v, w) hw (hempty _)

end Pass

/-! ## The propagator -/

namespace Propagator

variable [DecidableEq T] (how : Propagator V T) (P : Problem V T) (s : State V T)
  {arcs : Option (List (Arc V))} (hsym : P.Symmetric) (harcs : P.OnNeighbors (arcs.getD P.arcs))
  (hrest : ∀ e : Arc V, e.2 ∈ P.neighbors e.1 → e ∉ arcs.getD P.arcs →
    P.ConsistentAt (s.domains P) e)
  (trail : Option (Trail V T)) (limit : Limit)

omit [DecidableEq T] in
include harcs hrest in
lemma settling_start :
    (Pass.start how (s.domains P) (arcs.getD P.arcs) limit).Settling P (s.domains P) := by
  have hD := (Pass.start_frame how (s.domains P) (arcs.getD P.arcs) limit).1
  refine ⟨queueOnNeighbors_start how P s harcs limit, fun e hn he => ?_, fun v => ?_⟩
  · rw [hD]
    exact hrest e hn fun hmem => he ((Pass.mem_start how _ _ _ e).mpr hmem)
  · exact ⟨fun _ => true, by rw [hD, List.filter_true]⟩

omit hrest in
include hsym harcs in
/-- If a pass finds the domains consistent, the arcs it has started from are in order. -/
lemma consistentAt_of_consistent
    (hok : (how.propagate P s arcs trail limit).answer = .ok .consistent) {e : Arc V}
    (he : e ∈ arcs.getD P.arcs) :
    P.ConsistentAt ((how.propagate P s arcs trail limit).state.domains P) e :=
  Pass.consistentAt_run hsym (queueOnNeighbors_start how P s harcs limit) (harcs e he)
    (fun hoff => absurd ((Pass.mem_start how _ _ _ e).mpr he) hoff) hok

open scoped Classical in
include hsym harcs hrest in
/-- **Consistent domains are the greatest arc-consistent family**, each in its old order. -/
theorem choices_eq_filter_greatest
    (hok : (how.propagate P s arcs trail limit).answer = .ok .consistent) (v : V) :
    (how.propagate P s arcs trail limit).state.choices P v
      = (s.choices P v).filter fun x => decide (P.greatest (s.domains P) v x) := by
  obtain ⟨hcons, hfiltered⟩ := Pass.settled_run hsym (settling_start how P s harcs hrest limit) hok
  have hkept := (keeps_supported how P s harcs trail limit
    ((P.arcConsistent_greatest _).mutuallySupported hsym) (P.holds_greatest (s.domains P))).1
  obtain ⟨D, hD⟩ : ∃ D, (how.propagate P s arcs trail limit).state.domains P = D := ⟨_, rfl⟩
  have hD' : (Pass.run P how (Pass.start how (s.domains P) (arcs.getD P.arcs) limit)).2.domains
      = D := hD
  rw [hD'] at hcons hfiltered
  rw [hD] at hkept
  rw [State.choices, hD]
  obtain ⟨keep, hkeep⟩ := hfiltered v
  -- what is left is an arc-consistent family itself
  have hwithin : ∀ w, D.listAt w ⊆ s.choices P w := by
    intro w
    obtain ⟨keep, hkeep⟩ := hfiltered w
    rw [hkeep]
    exact List.filter_sublist.subset
  have hgreatest : ∀ x, x ∈ D.listAt v → P.greatest (s.domains P) v x := fun x hx =>
    ⟨fun w y => y ∈ D.listAt w, fun w u hu y hy => hcons (w, u) hu y hy,
      fun w y hy => hwithin w hy, hx⟩
  rw [hkeep]
  refine List.filter_congr fun x hx => ?_
  rw [Bool.eq_iff_iff, decide_eq_true_iff]
  constructor
  · intro hk
    refine hgreatest x ?_
    rw [hkeep]
    exact List.mem_filter.mpr ⟨hx, hk⟩
  · intro hg
    have hx' := hkept v x hg
    rw [hkeep] at hx'
    exact (List.mem_filter.mp hx').2

end Propagator

end BinaryCsp
