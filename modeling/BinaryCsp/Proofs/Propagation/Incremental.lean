import BinaryCsp.Proofs.Propagation.Agreement
import BinaryCsp.Search.Inference

/-!
# Propagation from a part of the arcs

A pass of `ac3` need not be given all arcs.  It finds the greatest arc-consistent family within the
domains it starts from, whatever the order of its queue, as long as the arcs it is not given are in
order already (`Problem.Covers`).

Two queues are known to cover: the full one, and, after one domain has been narrowed in a problem
whose arcs were all in order, the arcs that point at that variable (`Problem.covers_pointingAt`).
The second one is the queue of `Inference.arcConsistency`.  A supposition narrows a domain, whatever
comes of it (`State.narrowedAt_suppose`), so the inference after it finds the greatest family.

`ac3` notices a domain only when it becomes empty.  So the contradiction it reports always is one of
the greatest family, and it reports all of them if the domains start with values.
-/

namespace BinaryCsp

variable {V T : Type} [DecidableEq V]

/-! ## Queues that cover what is not in order -/

/-- The domains differ at one variable at most, and that one has no other values than before. -/
structure Domains.NarrowedAt (D' : Domains V T) (v : V) (D : Domains V T) : Prop where
  same : ∀ w, v ≠ w → D'.listAt w = D.listAt w
  subset : D'.listAt v ⊆ D.listAt v

lemma Domains.NarrowedAt.listAt_subset {D D' : Domains V T} {v : V} (h : D'.NarrowedAt v D)
    (w : V) : D'.listAt w ⊆ D.listAt w := by
  by_cases hw : v = w
  · subst hw
    exact h.subset
  · rw [h.same w hw]
    exact List.Subset.refl _

namespace Problem

variable (P : Problem V T) {D D' : Domains V T}

/-- Every arc between neighbors is in order. -/
def InOrder (D : Domains V T) : Prop := ∀ e : Arc V, e.2 ∈ P.neighbors e.1 → P.ConsistentAt D e

/-- The arcs that point at a variable. -/
def pointingAt (v : V) : List (Arc V) := (P.neighbors v).map fun w => (w, v)

/-- Arcs that a pass may start from: they join neighbors, and every other arc between neighbors is
in order. -/
structure Covers (D : Domains V T) (arcs : List (Arc V)) : Prop where
  onNeighbors : P.OnNeighbors arcs
  consistentAt : ∀ e : Arc V, e.2 ∈ P.neighbors e.1 → e ∉ arcs → P.ConsistentAt D e

lemma mem_pointingAt {v : V} {e : Arc V} : e ∈ P.pointingAt v ↔ e.2 = v ∧ e.1 ∈ P.neighbors v := by
  obtain ⟨a, b⟩ := e
  simp only [pointingAt, List.mem_map, Prod.mk.injEq]
  constructor
  · rintro ⟨w, hw, rfl, rfl⟩
    exact ⟨rfl, hw⟩
  · rintro ⟨rfl, ha⟩
    exact ⟨a, ha, rfl, rfl⟩

/-- The full queue leaves no arc out. -/
lemma covers_arcs (D : Domains V T) : P.Covers D P.arcs :=
  ⟨P.onNeighbors_arcs, fun _ he hne => absurd (P.mem_arcs.mpr he) hne⟩

/-- **Narrowing a domain puts out of order only arcs that point at it.** -/
theorem covers_pointingAt (hD : P.InOrder D) {v : V} (hn : D'.NarrowedAt v D) :
    P.Covers D' (P.pointingAt v) := by
  constructor
  · intro e he
    obtain ⟨rfl, ha⟩ := P.mem_pointingAt.mp he
    exact P.neighbors_symm _ _ ha
  · intro e he hne x hx
    have htarget : v ≠ e.2 := by
      rintro rfl
      exact hne (P.mem_pointingAt.mpr ⟨rfl, P.neighbors_symm _ _ he⟩)
    rw [hn.same e.2 htarget]
    exact hD e he x (hn.listAt_subset e.1 hx)

end Problem

/-- A supposition narrows the domain of its variable, or is refused and changes none. -/
lemma State.narrowedAt_suppose [DecidableEq T] (P : Problem V T) (s : State V T) (v : V) (x : T) :
    ((s.suppose P v x).2.domains P).NarrowedAt v (s.domains P) := by
  have hrefused : (s.domains P).NarrowedAt v (s.domains P) :=
    ⟨fun _ _ => rfl, List.Subset.refl _⟩
  rw [suppose]
  split
  · split
    · rename_i hx
      constructor
      · intro w hw
        exact (PartialMap.listAt_insert ..).trans (if_neg hw)
      · have hv : (domains P (s.withDomains ((s.domains P).insert v [x]))).listAt v = [x] :=
          (PartialMap.listAt_insert ..).trans (if_pos rfl)
        intro y hy
        rw [hv] at hy
        exact List.mem_singleton.mp hy ▸ hx
    · exact hrefused
  · exact hrefused

namespace Propagator

variable [DecidableEq T] (order : ArcOrder V T) (P : Problem V T) (s : State V T)
  {arcs : Option (List (Arc V))} (trail : Option (Trail V T)) (hsym : P.Symmetric)
  (hcovers : P.Covers (s.domains P) (arcs.getD P.arcs))

/-! ## Contradictions -/

include hsym hcovers in
/-- If `ac3` comes to a contradiction, the greatest family has no value for some declared
variable. -/
lemma exists_empty_of_inconsistent
    (hbad : (Propagator.propagate ⟨.ac3, order⟩ P s arcs trail .never).answer = .ok .inconsistent) :
    ∃ v ∈ P.vars, ∀ x, ¬ P.greatest (s.domains P) v x := by
  obtain ⟨v, hv, hnone⟩ := (keeps_supported ⟨.ac3, order⟩ P s hcovers.onNeighbors trail .never
    ((P.arcConsistent_greatest _).mutuallySupported hsym) (P.holds_greatest _)).2.2 hbad
  exact ⟨v, P.mem_vars_of_neighbors_ne_nil hv, hnone⟩

include hsym hcovers in
/-- If all variables start with values, `ac3` comes to a contradiction wherever the greatest family
has no value. -/
lemma inconsistent_of_exists_empty (hsome : ∀ v ∈ P.vars, s.choices P v ≠ [])
    (hempty : ∃ v ∈ P.vars, ∀ x, ¬ P.greatest (s.domains P) v x) :
    (Propagator.propagate ⟨.ac3, order⟩ P s arcs trail .never).answer = .ok .inconsistent := by
  obtain ⟨v, hv, hnone⟩ := hempty
  exact (ac3_inconsistent_iff order P s trail hsym hcovers.onNeighbors hcovers.consistentAt).mpr
    ⟨v, hsome v hv, hnone⟩

/-! ## What a pass computes -/

open scoped Classical in
/-- **`ac3` computes the greatest arc-consistent family** within the domains it starts from, under a
symmetric predicate and without a limit, from every queue that covers what is not in order.  It
comes to a conclusion.  Consistent domains are the greatest family, each in its old order; on a
contradiction the family has no value for some variable; and if all variables start with values,
these are the only two cases.  The full queue covers; so do the arcs that point at a variable, once
its domain has been narrowed in a problem whose arcs were all in order. -/
theorem ac3_computes_greatest (order : ArcOrder V T) (P : Problem V T) (s : State V T)
    (trail : Option (Trail V T)) (hsym : P.Symmetric) :
    (∀ arcs : Option (List (Arc V)), P.Covers (s.domains P) (arcs.getD P.arcs) →
      let out := Propagator.propagate ⟨.ac3, order⟩ P s arcs trail .never
      (out.answer = .ok .consistent ∨ out.answer = .ok .inconsistent) ∧
        (out.answer = .ok .consistent → ∀ v, out.state.choices P v
          = (s.choices P v).filter fun x => decide (P.greatest (s.domains P) v x)) ∧
        (out.answer = .ok .inconsistent → ∃ v ∈ P.vars, ∀ x, ¬ P.greatest (s.domains P) v x) ∧
        ((∀ v ∈ P.vars, s.choices P v ≠ []) → (out.answer = .ok .inconsistent ↔
          ∃ v ∈ P.vars, ∀ x, ¬ P.greatest (s.domains P) v x))) ∧
      P.Covers (s.domains P) (Option.getD none P.arcs) ∧
      ∀ (D : Domains V T) (v : V), P.InOrder D → (s.domains P).NarrowedAt v D →
        P.Covers (s.domains P) (Option.getD (some (P.pointingAt v)) P.arcs) := by
  refine ⟨?_, P.covers_arcs _, fun D v hD hn => P.covers_pointingAt hD hn⟩
  intro arcs hcovers out
  have hempty := exists_empty_of_inconsistent order P s trail hsym hcovers
  refine ⟨concludes ⟨.ac3, order⟩ P s hcovers.onNeighbors trail, ?_, hempty,
    fun hsome => ⟨hempty, ?_⟩⟩
  · exact choices_eq_filter_greatest ⟨.ac3, order⟩ P s hsym hcovers.onNeighbors
      hcovers.consistentAt trail .never
  · exact inconsistent_of_exists_empty order P s trail hsym hcovers hsome

open scoped Classical in
/-- Two numbers in ascending order, each with a partner, after the second has been supposed: the arc
that points at it is enough. -/
theorem ac3_computes_greatest_ascending :
    let P := Problem.ascending [1, 2] [2, 3]
    let s := (State.initial.suppose P true 2).2
    let out :=
      Propagator.propagate ⟨.ac3, .largestTarget⟩ P s (some (P.pointingAt true)) none .never
    P.Symmetric ∧ P.InOrder P.baseline ∧ (s.domains P).NarrowedAt true P.baseline ∧
      out.answer = .ok .consistent ∧
      ∀ v, out.state.choices P v
        = (s.choices P v).filter fun x => decide (P.greatest (s.domains P) v x) := by
  intro P s out
  have hsym : P.Symmetric := Problem.symmetric_ascending _ _
  have horder : P.InOrder P.baseline := by
    rintro ⟨v, w⟩ hn
    revert hn
    revert v w
    decide
  have hnarrow : (s.domains P).NarrowedAt true P.baseline :=
    State.narrowedAt_suppose P .initial true 2
  have hpair : ∀ v, ∃ x, P.greatest (s.domains P) v x := by
    have hsupport : ∀ v, ∀ w ∈ P.neighbors v,
        P.check v (if v then 2 else 1) w (if w then 2 else 1) = true := by decide
    have hwithin : ∀ v, (if v then 2 else 1) ∈ s.choices P v := by decide
    refine fun v => ⟨_, fun v x => x = if v then 2 else 1, ?_, ?_, rfl⟩
    · rintro v w hw _ rfl
      exact ⟨_, rfl, hsupport v w hw⟩
    · rintro v _ rfl
      exact hwithin v
  obtain ⟨hcomputes, -, hcovers⟩ := ac3_computes_greatest .largestTarget P s none hsym
  obtain ⟨hanswers, hfilter, hempty, -⟩ := hcomputes (some (P.pointingAt true))
    (hcovers P.baseline true horder hnarrow)
  have hok : out.answer = .ok .consistent := by
    refine hanswers.resolve_right fun hbad => ?_
    obtain ⟨v, -, hnone⟩ := hempty hbad
    obtain ⟨x, hx⟩ := hpair v
    exact hnone x hx
  exact ⟨hsym, horder, hnarrow, hok, hfilter hok⟩

end Propagator

/-! ## The inference of a search -/

/-- Domains that a pass from a covering queue finds consistent are in order. -/
lemma Propagator.inOrder_of_consistent [DecidableEq T] {how : Propagator V T} {P : Problem V T}
    {s : State V T} {arcs : Option (List (Arc V))} {trail : Option (Trail V T)} {limit : Limit}
    (hsym : P.Symmetric) (hcovers : P.Covers (s.domains P) (arcs.getD P.arcs))
    (hok : (how.propagate P s arcs trail limit).answer = .ok .consistent) :
    P.InOrder ((how.propagate P s arcs trail limit).state.domains P) :=
  (Pass.settled_run hsym
    (settling_start how P s hcovers.onNeighbors hcovers.consistentAt limit) hok).1

namespace Inference

variable {σ : Type} [DecidableEq T] (how : Propagator V T) {P : Problem V T}

/-- The inference is a pass from the arcs that point at the variable that is tried. -/
lemma arcConsistency_eq_propagate {v : V} (hv : v ∈ P.vars) (x : T) (a : Assignment V T)
    (t : Trial V T σ) :
    let pass := how.propagate P t.state (some (P.pointingAt v)) (some t.trail) t.context.limit
    ((arcConsistency P how).infer v x a t).1 = pass.answer ∧
      ((arcConsistency P how).infer v x a t).2.state = pass.state := by
  have hws : P.neighbors? v = .ok (P.neighbors v) := if_pos hv
  simp only [arcConsistency, hws]
  split
  · rename_i f hf
    exact ⟨hf.symm, rfl⟩
  · rename_i verdict hverdict
    exact ⟨hverdict.symm, rfl⟩

/-- **The inference keeps a problem in order.**  If all arcs were in order before a value was
supposed, and the inference finds the domains consistent, they are in order again, and the next
supposition starts from there. -/
theorem inOrder_arcConsistency (hsym : P.Symmetric) {s : State V T} (hs : P.InOrder (s.domains P))
    {v : V} (hv : v ∈ P.vars) (x : T) (a : Assignment V T) {t : Trial V T σ}
    (ht : t.state = (s.suppose P v x).2)
    (hok : ((arcConsistency P how).infer v x a t).1 = .ok .consistent) :
    P.InOrder (((arcConsistency P how).infer v x a t).2.state.domains P) := by
  obtain ⟨hanswer, hstate⟩ := arcConsistency_eq_propagate how hv x a t
  have hcovers : P.Covers (t.state.domains P) (Option.getD (some (P.pointingAt v)) P.arcs) :=
    P.covers_pointingAt hs (ht ▸ State.narrowedAt_suppose P s v x)
  rw [hstate]
  exact Propagator.inOrder_of_consistent hsym hcovers (hanswer.symm.trans hok)

end Inference

end BinaryCsp
