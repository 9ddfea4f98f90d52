import BinaryCsp.Proofs.Propagation.Agreement

/-!
# What `ac3` leaves under a predicate that answers differently in the two orders

When the domain of `b` shrinks because of `a`, `ac3` queues the arcs that lead to `b`, but not
`(a, b)`.  If the predicate answers alike in both orders, nothing is lost: a value of `b` without
support in `a` has given support to no value of `a`.  Otherwise it may have, and a pass that finds
the domains consistent may end short of a fixpoint (`Propagator.ac3_misses_fixpoint`).

No more than that goes wrong, whatever the predicate:

* a value that has lost its partner has lost it to the reverse arc, on which the partner goes with
  no value at all (`Problem.PartneredAt`);
* of an arc and its reverse one at least is in order, the one that was revised last
  (`Pass.HalfSettled`);
* so an arc is in order if what it asks is answered alike on the reverse one
  (`Problem.PartneredAt.consistentAt`).
-/

namespace BinaryCsp

variable {V T : Type} [DecidableEq V]

/-- Each value of `a` goes with a value that `b` had in the domains `D₀`, and that value is still
there, or goes with no value of `a` when asked in the other order. -/
def Problem.PartneredAt (P : Problem V T) (D₀ D : Domains V T) (arc : Arc V) : Prop :=
  ∀ x ∈ D.listAt arc.1, ∃ y ∈ D₀.listAt arc.2, P.check arc.1 x arc.2 y = true ∧
    (y ∈ D.listAt arc.2 ∨ ∀ x' ∈ D.listAt arc.1, P.check arc.2 y arc.1 x' = false)

/-- If what the arc asks is answered alike on the reverse one, no partner has gone. -/
lemma Problem.PartneredAt.consistentAt {P : Problem V T} {D₀ D : Domains V T} {arc : Arc V}
    (h : P.PartneredAt D₀ D arc)
    (halike : ∀ x y, P.check arc.1 x arc.2 y = true → P.check arc.2 y arc.1 x = true) :
    P.ConsistentAt D arc := by
  intro x hx
  obtain ⟨y, -, hcheck, hleft | hnone⟩ := h x hx
  · exact ⟨y, hleft, hcheck⟩
  · cases (halike x y hcheck).symm.trans (hnone x hx)

namespace Pass

variable {P : Problem V T} {order : ArcOrder V T} {D₀ : Domains V T}

/-! ## One revision -/

section Revise

variable {p : Pass V T} {a b : V} (h : b ∈ P.neighbors a)
include h

/-- **A revision gives the values of its arc partners, and takes none away** from an arc off the
queue, but by the reverse arc. -/
theorem partneredAt_revise (hwithin : ∀ v, p.domains.listAt v ⊆ D₀.listAt v) {e : Arc V}
    (hn : e.2 ∈ P.neighbors e.1) (hp : e ≠ (a, b) → e ∉ p.queue → P.PartneredAt D₀ p.domains e)
    (hq : e ∉ (p.revise P order a b).queue) :
    P.PartneredAt D₀ (p.revise P order a b).domains e := by
  have hab := P.ne_of_mem_neighbors h
  obtain ⟨c, d⟩ := e
  intro x hx
  by_cases harc : (c, d) = (a, b)
  · obtain ⟨rfl, rfl⟩ := Prod.mk.inj harc
    obtain ⟨-, y, hy, hcheck⟩ := mem_revise.mp hx
    refine ⟨y, hwithin d hy, hcheck, Or.inl ?_⟩
    rwa [listAt_revise_of_ne hab]
  · obtain ⟨y, hy₀, hcheck, hlast⟩ :=
      hp harc (not_mem_of_not_mem_revise hq) x (listAt_revise_subset c hx)
    refine ⟨y, hy₀, hcheck, ?_⟩
    rcases hlast with hy | hnone
    · by_cases hy' : y ∈ (p.revise P order a b).domains.listAt d
      · exact Or.inl hy'
      · -- the partner has gone, and `(c, d)` is not queued: this was the revision of `(d, c)`
        obtain rfl : a = d := by_contra fun hd => hy' (by rwa [listAt_revise_of_ne hd])
        obtain rfl : c = b := by_contra fun hcb => hy' (by rwa [listAt_revise_of_not_mem hn hcb hq])
        refine Or.inr fun x' hx' => Bool.eq_false_iff.mpr fun hcheck' => hy' ?_
        exact mem_revise.mpr ⟨hy, x', listAt_revise_subset c hx', hcheck'⟩
    · exact Or.inr fun x' hx' => hnone x' (listAt_revise_subset c hx')

/-- **Of an arc and its reverse a revision leaves one in order**, or queued. -/
theorem oneWay_revise {e : Arc V} (hn : e.2 ∈ P.neighbors e.1)
    (hp : e ≠ (a, b) → e.swap ≠ (a, b) → (e ∉ p.queue → P.ConsistentAt p.domains e) ∨
      (e.swap ∉ p.queue → P.ConsistentAt p.domains e.swap)) :
    (e ∉ (p.revise P order a b).queue → P.ConsistentAt (p.revise P order a b).domains e) ∨
      (e.swap ∉ (p.revise P order a b).queue →
        P.ConsistentAt (p.revise P order a b).domains e.swap) := by
  have hn' : e.swap.2 ∈ P.neighbors e.swap.1 := P.neighbors_symm _ _ hn
  have hab : (a, b) ≠ (b, a) := fun heq => P.ne_of_mem_neighbors h (Prod.mk.inj heq).1
  by_cases he : e = (a, b)
  · exact Or.inl (consistentAt_revise_of_ne h hn (he ▸ hab) fun hne => absurd he hne)
  by_cases he' : e.swap = (a, b)
  · exact Or.inr (consistentAt_revise_of_ne h hn' (he' ▸ hab) fun hne => absurd he' hne)
  · have hne : e ≠ (b, a) := fun heq => he' (by rw [heq, Prod.swap_prod_mk])
    have hne' : e.swap ≠ (b, a) := fun heq => he (by rw [← e.swap_swap, heq, Prod.swap_prod_mk])
    exact (hp he he').imp (fun hp => consistentAt_revise_of_ne h hn hne fun _ => hp)
      fun hp => consistentAt_revise_of_ne h hn' hne' fun _ => hp

end Revise

/-! ## Passes -/

section Passes

variable [DecidableEq T] {p : Pass V T}

/-- A step of `ac3` that goes on takes an arc off the queue and revises it. -/
lemma step_ac3_eq_revise (hq : p.QueueOnNeighbors P) {q : Pass V T}
    (hstep : p.step P ⟨.ac3, order⟩ = .goesOn q) :
    ∃ (a b : V) (t : Pass V T), b ∈ P.neighbors a ∧ (a, b) ∈ p.queue ∧ t.domains = p.domains ∧
      (∀ e, e ∈ t.queue ↔ e ≠ (a, b) ∧ e ∈ p.queue) ∧ q = t.revise P order a b := by
  obtain ⟨⟨a, b⟩, rest, clock, hmem, hrest, -, hvisit⟩ := visit_of_goesOn hstep
  have hn : b ∈ P.neighbors a := hq (a, b) hmem
  rcases visitAc3_of_neighbor P order hn (p.taken rest clock) with
    ⟨n, ⟨-, hgo⟩ | ⟨r, hend, -⟩⟩
  · exact ⟨a, b, (p.taken rest clock).countChecks n, hn, hmem, rfl, hrest,
      Visit.goesOn.inj (hvisit.symm.trans hgo)⟩
  · cases hend.symm.trans hvisit

/-- The state of a pass of `ac3` that started with the domains `D₀`, under any predicate. -/
structure HalfSettled (P : Problem V T) (D₀ : Domains V T) (p : Pass V T) : Prop where
  within : ∀ v, p.domains.listAt v ⊆ D₀.listAt v
  partnered : p.OffQueue P (P.PartneredAt D₀)
  oneWay : ∀ e : Arc V, e.2 ∈ P.neighbors e.1 → (e ∉ p.queue → P.ConsistentAt p.domains e) ∨
    (e.swap ∉ p.queue → P.ConsistentAt p.domains e.swap)

lemma HalfSettled.step (hq : p.QueueOnNeighbors P) (h : p.HalfSettled P D₀) {q : Pass V T}
    (hstep : p.step P ⟨.ac3, order⟩ = .goesOn q) : q.HalfSettled P D₀ := by
  obtain ⟨a, b, t, hn, -, hD, hrest, rfl⟩ := step_ac3_eq_revise hq hstep
  have hwithin : ∀ v, t.domains.listAt v ⊆ D₀.listAt v := hD ▸ h.within
  -- an arc other than the one that was taken is queued still, if it was
  have hstill : ∀ {e}, e ≠ (a, b) → e ∉ t.queue → e ∉ p.queue :=
    fun hne hoff hmem => hoff ((hrest _).mpr ⟨hne, hmem⟩)
  refine ⟨fun v => List.Subset.trans (listAt_revise_subset v) (hwithin v), fun e he => ?_,
    fun e he => ?_⟩
  · refine partneredAt_revise hn hwithin he fun hne hoff => ?_
    rw [hD]
    exact h.partnered e he (hstill hne hoff)
  · refine oneWay_revise hn he fun hne hne' => ?_
    rw [hD]
    exact (h.oneWay e he).imp (fun hp hoff => hp (hstill hne hoff))
      fun hp hoff => hp (hstill hne' hoff)

end Passes

end Pass

/-! ## The propagator -/

namespace Propagator

variable [DecidableEq T]

/-- **How far a consistent pass of `ac3` gets**, under any predicate, with any order of its queue
and any limit, if it starts from all arcs.  Between neighbors each value left goes with a value that
was there at the start, and has lost it only if that one, asked in the other order, goes with no
value left.  Of the two arcs between neighbors one is in order.  And an arc is in order if every
pair that it accepts is accepted on the reverse arc. -/
theorem ac3_partners_up_to_reverse (order : ArcOrder V T) (P : Problem V T) (s : State V T)
    (trail : Option (Trail V T)) (limit : Limit)
    (hok : (Propagator.propagate ⟨.ac3, order⟩ P s none trail limit).answer = .ok .consistent) :
    let D := (Propagator.propagate ⟨.ac3, order⟩ P s none trail limit).state.domains P
    ∀ a, ∀ b ∈ P.neighbors a, P.PartneredAt (s.domains P) D (a, b) ∧
      (P.ConsistentAt D (a, b) ∨ P.ConsistentAt D (b, a)) ∧
      ((∀ x y, P.check a x b y = true → P.check b y a x = true) → P.ConsistentAt D (a, b)) := by
  intro D a b hb
  have hq : (Pass.start ⟨.ac3, order⟩ (s.domains P) P.arcs limit).QueueOnNeighbors P :=
    fun e he => P.onNeighbors_arcs e ((Pass.mem_start _ _ _ _ e).mp he)
  have hD := (Pass.start_frame ⟨.ac3, order⟩ (s.domains P) P.arcs limit).1
  have hqueued : ∀ e : Arc V, e.2 ∈ P.neighbors e.1 →
      e ∈ (Pass.start ⟨.ac3, order⟩ (s.domains P) P.arcs limit).queue :=
    fun e he => (Pass.mem_start _ _ _ _ e).mpr (P.mem_arcs.mpr he)
  have hstart : (Pass.start ⟨.ac3, order⟩ (s.domains P) P.arcs limit).HalfSettled P (s.domains P) :=
    ⟨fun v => by rw [hD]; exact List.Subset.refl _, fun e he hoff => absurd (hqueued e he) hoff,
      fun e he => Or.inl fun hoff => absurd (hqueued e he) hoff⟩
  obtain ⟨q, hend, hempty, hDq⟩ := Pass.of_run_eq_consistent
    (I := fun p => p.HalfSettled P (s.domains P)) (fun _ _ hq h hstep => h.step hq hstep) hq hstart
    hok
  have hpartnered : P.PartneredAt (s.domains P) D (a, b) := by
    rw [show D = q.domains from hDq]
    exact hend.partnered (a, b) hb (hempty _)
  have honeWay : P.ConsistentAt D (a, b) ∨ P.ConsistentAt D (b, a) := by
    rw [show D = q.domains from hDq]
    exact (hend.oneWay (a, b) hb).imp (fun h => h (hempty _)) fun h => h (hempty _)
  exact ⟨hpartnered, honeWay, hpartnered.consistentAt⟩

end Propagator

/-! ## A pass that ends short of a fixpoint -/

namespace Problem

/-- The number that is accepted from one side only. -/
def odd (v : Bool) : Nat := if v then 3 else 2

/-- Two numbers that are to be equal.  Asked from one side 1 and 2 are accepted, asked from the
other 1 and 3. -/
def oneSided : Problem Bool Nat :=
  pair [1, 2, 3] [1, 2, 3] (.ofPredicate fun v x _ y => decide (x = y ∧ (x = 1 ∨ x = odd v)))

lemma check_oneSided (v w : Bool) (x y : Nat) :
    oneSided.check v x w y = decide (x = y ∧ (x = 1 ∨ x = odd v)) := rfl

lemma eq_not_of_mem_neighbors_oneSided : ∀ v, ∀ w ∈ oneSided.neighbors v, w = !v := by decide

/-- The number 1 is accepted from both sides. -/
lemma mutuallySupported_oneSided : oneSided.MutuallySupported fun _ x => x = 1 := by
  have hone : ∀ v, ∀ w ∈ oneSided.neighbors v, oneSided.check v 1 w 1 = true := by decide
  rintro v w hw x rfl
  exact ⟨1, rfl, hone v w hw, hone w v (oneSided.neighbors_symm v w hw)⟩

end Problem

namespace Pass

open Problem

/-- Whichever arc is revised first, its side keeps its odd number, and that arc never comes back. -/
def KeepsOdd (p : Pass Bool Nat) : Prop :=
  (∀ v w, odd v ∈ p.domains.listAt w) ∨ ∃ v, odd v ∈ p.domains.listAt v ∧ (v, !v) ∉ p.queue

lemma KeepsOdd.step {order : ArcOrder Bool Nat} {p q : Pass Bool Nat}
    (hq : p.QueueOnNeighbors oneSided) (h : p.KeepsOdd)
    (hstep : p.step oneSided ⟨.ac3, order⟩ = .goesOn q) : q.KeepsOdd := by
  obtain ⟨a, b, t, hn, hmem, hD, hrest, rfl⟩ := step_ac3_eq_revise hq hstep
  obtain rfl := eq_not_of_mem_neighbors_oneSided a b hn
  -- there is no third variable, so the revision queues nothing
  have hqueue : ∀ e, e ∈ (t.revise oneSided order a (!a)).queue → e ≠ (a, !a) ∧ e ∈ p.queue := by
    intro e he
    refine (hrest e).mp (((mem_shrink _ _).mp he).resolve_left ?_)
    rintro ⟨-, -, hw, hne⟩
    exact hne (eq_not_of_mem_neighbors_oneSided a _ hw)
  right
  rcases h with hall | ⟨v, hv, hoff⟩
  · have hcheck : ∀ v, oneSided.check v (odd v) (!v) (odd v) = true := by decide
    refine ⟨a, mem_revise.mpr ⟨?_, odd a, ?_, hcheck a⟩, fun he => (hqueue _ he).1 rfl⟩
    · exact hD ▸ hall a a
    · exact hD ▸ hall a (!a)
  · have hne : a ≠ v := by
      rintro rfl
      exact hoff hmem
    refine ⟨v, ?_, fun he => hoff (hqueue _ he).2⟩
    rw [listAt_revise_of_ne hne, hD]
    exact hv

end Pass

namespace Propagator

open Problem

/-- From all arcs `ac3` finds the domains consistent: 1 stays on both sides. -/
lemma ac3_consistent_oneSided (order : ArcOrder Bool Nat) :
    (Propagator.propagate ⟨.ac3, order⟩ oneSided .initial none none .never).answer
      = .ok .consistent := by
  have harcs : oneSided.OnNeighbors (Option.getD none oneSided.arcs) := oneSided.onNeighbors_arcs
  have hin : (State.initial.domains oneSided).Holds fun _ x => x = 1 := by
    have hone : ∀ v, 1 ∈ (State.initial.domains oneSided).listAt v := by decide
    rintro v x rfl
    exact hone v
  refine (concludes ⟨.ac3, order⟩ oneSided .initial harcs none).resolve_right fun hbad => ?_
  obtain ⟨v, -, hnone⟩ := (keeps_supported ⟨.ac3, order⟩ oneSided .initial harcs none .never
    mutuallySupported_oneSided hin).2.2 hbad
  exact hnone 1 rfl

/-- The numbers that are accepted from one side only. -/
theorem ac3_partners_up_to_reverse_oneSided :
    let out := Propagator.propagate ⟨.ac3, .insertion⟩ oneSided .initial none none .never
    out.answer = .ok .consistent ∧
      oneSided.PartneredAt oneSided.baseline (out.state.domains oneSided) (false, true) ∧
      (oneSided.ConsistentAt (out.state.domains oneSided) (false, true) ∨
        oneSided.ConsistentAt (out.state.domains oneSided) (true, false)) := by
  intro out
  have hok := ac3_consistent_oneSided .insertion
  obtain ⟨hpartnered, honeWay, -⟩ :=
    ac3_partners_up_to_reverse .insertion oneSided .initial none .never hok false true (by decide)
  exact ⟨hok, hpartnered, honeWay⟩

/-- In whatever order `ac3` takes up the arcs, it leaves the number 2 of the first variable or the
number 3 of the second without support. -/
lemma exists_unsupported_oneSided (order : ArcOrder Bool Nat) :
    let out := Propagator.propagate ⟨.ac3, order⟩ oneSided .initial none none .never
    ∃ v, ∃ w ∈ oneSided.neighbors v, ∃ x ∈ out.state.choices oneSided v,
      ∀ y ∈ out.state.choices oneSided w, oneSided.check v x w y = false := by
  intro out
  have hok := ac3_consistent_oneSided order
  have hq : (Pass.start ⟨.ac3, order⟩ (State.initial.domains oneSided) oneSided.arcs
      .never).QueueOnNeighbors oneSided :=
    fun e he => oneSided.onNeighbors_arcs e ((Pass.mem_start _ _ _ _ e).mp he)
  have hstart : (Pass.start ⟨.ac3, order⟩ (State.initial.domains oneSided) oneSided.arcs
      .never).KeepsOdd := by
    have hall : ∀ v w, odd v ∈ (State.initial.domains oneSided).listAt w := by decide
    rw [Pass.KeepsOdd, (Pass.start_frame _ _ _ _).1]
    exact Or.inl hall
  obtain ⟨q, hend, -, hD⟩ := Pass.of_run_eq_consistent (I := Pass.KeepsOdd)
    (fun _ _ hq h hstep => h.step hq hstep) hq hstart hok
  obtain ⟨v, hv⟩ : ∃ v, odd v ∈ out.state.choices oneSided v := by
    rw [show out.state.choices oneSided = q.domains.listAt from congrArg PartialMap.listAt hD]
    rcases hend with hall | ⟨v, hv, -⟩
    · exact ⟨false, hall false false⟩
    · exact ⟨v, hv⟩
  have hw : ∀ v, (!v) ∈ oneSided.neighbors v := by decide
  have hodd : ∀ v, odd v ≠ 1 ∧ odd v ≠ odd (!v) := by decide
  by_cases hother : odd v ∈ out.state.choices oneSided (!v)
  · -- the other side has the number as well, and does not accept it
    refine ⟨!v, v, by simpa using hw (!v), odd v, hother, fun y _ => ?_⟩
    simp [check_oneSided, hodd v]
  · refine ⟨v, !v, hw v, odd v, hv, fun y hy => ?_⟩
    have hne : odd v ≠ y := fun heq => hother (heq ▸ hy)
    simp [check_oneSided, hne]

/-- **A consistent pass of `ac3` need not have reached a fixpoint**: a value that is left goes with
no value left of a neighbor. -/
theorem ac3_misses_fixpoint :
    let out := Propagator.propagate ⟨.ac3, .largestTarget⟩ oneSided .initial none none .never
    out.answer = .ok .consistent ∧
      ∃ v, ∃ w ∈ oneSided.neighbors v, ∃ x ∈ out.state.choices oneSided v,
        ∀ y ∈ out.state.choices oneSided w, oneSided.check v x w y = false :=
  ⟨ac3_consistent_oneSided .largestTarget, exists_unsupported_oneSided .largestTarget⟩

end Propagator

end BinaryCsp
