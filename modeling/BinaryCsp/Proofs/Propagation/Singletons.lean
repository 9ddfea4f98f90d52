import BinaryCsp.Proofs.Propagation.Greatest

/-!
# Domains down to one value

A visit that goes on leaves values in every domain that had some, whatever the predicate
(`Pass.listAt_ne_nil_of_visit`): `ac3` and `ac3b` both stop when the domain of their arc runs empty,
and of the values at the other end `ac3b` keeps at least one that has given support.  So a domain
that is down to one value keeps it as long as the pass finds no contradiction.

Let two neighbors `u` and `v` be down to one value each, the arc `(u, v)` be queued and the reverse
arc not (`Pass.Pinned`).  The reverse arc is queued only when the domain of `u` shrinks, so it never
is.  Hence `(u, v)` is never settled as the reverse of another arc: it stays in the queue until it
is visited itself, and then the predicate is asked from `u` to `v`.
-/

namespace BinaryCsp

open Support

variable {V T : Type} [DecidableEq V] {P : Problem V T}

namespace Pass

/-! ## No domain runs empty -/

section Visits

variable {order : ArcOrder V T} {p q : Pass V T}

lemma listAt_shrink_ne_nil {v except : V} {left gone : List T}
    (hsub : left.Sublist (p.domains.listAt v)) (hleft : p.domains.listAt v ≠ [] → left ≠ []) {w : V}
    (hw : p.domains.listAt w ≠ []) :
    (p.shrink P order v except left gone).domains.listAt w ≠ [] := by
  rw [listAt_shrink P order hsub]
  split
  · rename_i hv
    exact hleft (hv ▸ hw)
  · exact hw

variable [DecidableEq T]

/-- Settling the reverse arc cuts a domain down, if anything, to values among which are all that
have given support. -/
lemma settleReverse_cases {a b : V} {check : T → T → Bool} {xs : List T} {known : Partition T T}
    (hknown : known.Knows check xs (p.domains.listAt b)) (hsome : known.supported.toList ≠ []) :
    p.settleReverse P order a b known = p ∨
      ∃ (t : Pass V T) (left gone : List T), t.domains = p.domains ∧
        (∀ e, e ∈ t.queue ↔ e ≠ (b, a) ∧ e ∈ p.queue) ∧ left.Sublist (p.domains.listAt b) ∧
        left ≠ [] ∧ p.settleReverse P order a b known = t.shrink P order b a left gone := by
  rw [settleReverse]
  split
  · right
    let found := sift (fun y x => P.check b y a x) (fun _ => known.supported.toList) known.unproven
    have hgone : found.removed.toList.Sublist known.unproven := removed_sift_sublist _ _ _
    refine ⟨{ p with queue := p.queue.remove (b, a) }.countChecks found.checks,
      known.without (p.domains.listAt b) found.removed.toList, found.removed.toList, rfl,
      fun _ => ArcQueue.mem_remove, without_sublist known _ _, fun hnil => ?_, rfl⟩
    -- if nothing were left, the values that go would outnumber those that are unproven
    have hleft := (without_perm known (hgone.trans hknown.sublist)).length_eq
    have hall := hknown.perm.length_eq
    have hproven := List.length_pos_of_ne_nil (hknown.proven_ne_nil hsome)
    have hle := hgone.length_le
    rw [hnil, List.length_append, List.length_nil] at hleft
    rw [List.length_append] at hall
    omega
  · exact Or.inl rfl

/-- **A visit between neighbors that goes on** has revised its arc, and left values there if there
were any; it may have cut the other domain down too, taking the reverse arc off the queue. -/
theorem goesOn_cases (how : Propagator V T) {arc : Arc V} (h : arc.2 ∈ P.neighbors arc.1)
    (hq : p.visit P how arc = .goesOn q) :
    ∃ n, (p.domains.listAt arc.1 ≠ [] →
        (p.domains.listAt arc.1).filter (p.hasSupport P arc.1 arc.2) ≠ []) ∧
      ∃ r, r = (p.countChecks n).revise P how.order arc.1 arc.2 ∧
        (q = r ∨ ∃ (t : Pass V T) (left gone : List T), t.domains = r.domains ∧
          (∀ e, e ∈ t.queue ↔ e ≠ arc.swap ∧ e ∈ r.queue) ∧ left.Sublist (r.domains.listAt arc.2) ∧
          left ≠ [] ∧ q = t.shrink P how.order arc.2 arc.1 left gone) := by
  obtain ⟨a, b⟩ := arc
  rw [visit] at hq
  cases hm : how.method with
  | ac3 =>
    rw [hm] at hq
    rcases visitAc3_of_neighbor P how.order h p with ⟨n, ⟨hsome, hgo⟩ | ⟨r, hend, -⟩⟩
    · obtain rfl := Visit.goesOn.inj (hgo.symm.trans hq)
      exact ⟨n, hsome, _, rfl, Or.inl rfl⟩
    · cases hend.symm.trans hq
  | ac3b =>
    rw [hm] at hq
    rcases visitAc3b_of_neighbor P how.order h p with ⟨n, known, hknown, ⟨hne, hgo⟩ | ⟨-, hend⟩⟩
    · obtain rfl := Visit.goesOn.inj (hgo.symm.trans hq)
      refine ⟨n, fun _ => hne, _, rfl, ?_⟩
      have hb : ((p.countChecks n).revise P how.order a b).domains.listAt b = p.domains.listAt b :=
        listAt_revise_of_ne (P.ne_of_mem_neighbors h)
      have hknows : known.Knows (fun x y => P.check a x b y) (p.domains.listAt a)
          (((p.countChecks n).revise P how.order a b).domains.listAt b) := hb.symm ▸ hknown
      exact settleReverse_cases hknows (hknown.supported ▸ hne)
    · cases hend.symm.trans hq

variable {how : Propagator V T} {arc : Arc V} (hn : arc.2 ∈ P.neighbors arc.1)

include hn in
/-- **A visit that goes on empties no domain.** -/
theorem listAt_ne_nil_of_visit (hq : p.visit P how arc = .goesOn q) {v : V}
    (hv : p.domains.listAt v ≠ []) : q.domains.listAt v ≠ [] := by
  obtain ⟨n, hsome, r, hr, hlast⟩ := goesOn_cases how hn hq
  have hfirst : r.domains.listAt v ≠ [] := by
    rw [hr]
    exact listAt_shrink_ne_nil (p := p.countChecks n) List.filter_sublist hsome hv
  rcases hlast with rfl | ⟨t, left, gone, hD, -, hsub, hleft, rfl⟩
  · exact hfirst
  · exact listAt_shrink_ne_nil (hD ▸ hsub) (fun _ => hleft) (hD ▸ hfirst)

end Visits

/-- A consistent pass empties no domain. -/
theorem listAt_ne_nil_of_run [DecidableEq T] {how : Propagator V T} {p : Pass V T}
    (hq : p.QueueOnNeighbors P) (hok : (p.run P how).1 = .ok .consistent) {v : V}
    (hv : p.domains.listAt v ≠ []) : (p.run P how).2.domains.listAt v ≠ [] := by
  have hstep : ∀ p q : Pass V T, p.QueueOnNeighbors P → p.domains.listAt v ≠ [] →
      p.step P how = .goesOn q → q.domains.listAt v ≠ [] := by
    intro p q hq hv hstep
    obtain ⟨arc, rest, clock, hmem, -, -, hvisit⟩ := visit_of_goesOn hstep
    exact listAt_ne_nil_of_visit (hq arc hmem) hvisit hv
  obtain ⟨q, hleft, -, hD⟩ := of_run_eq_consistent hstep hq hv hok
  rw [hD]
  exact hleft

/-! ## Two neighbors with one value each -/

/-- Two neighbors are down to one value each; the arc from the first is queued, or the predicate was
asked along it; the reverse arc is not queued. -/
structure Pinned (P : Problem V T) (u v : V) (y x : T) (p : Pass V T) : Prop where
  first : p.domains.listAt u = [y]
  second : p.domains.listAt v = [x]
  unqueued : (v, u) ∉ p.queue
  asked : (u, v) ∈ p.queue ∨ P.check u y v x = true

section Pinned

variable {u v : V} {y x : T} {p q : Pass V T}

/-- A part of a single value that is not empty is all of it. -/
lemma eq_singleton_of_sublist {l : List T} {y : T} (h : l.Sublist [y]) (hne : l ≠ []) : l = [y] :=
  h.eq_of_length_le (List.length_pos_of_ne_nil hne)

/-- Cutting a domain down to something queues no arc to a domain with a single value. -/
lemma Pinned.shrink (h : p.Pinned P u v y x) {order : ArcOrder V T} {c except : V}
    {left gone : List T} (hsub : left.Sublist (p.domains.listAt c))
    (hleft : p.domains.listAt c ≠ [] → left ≠ []) :
    (p.shrink P order c except left gone).Pinned P u v y x := by
  have hsingle : ∀ w z, p.domains.listAt w = [z] →
      (p.shrink P order c except left gone).domains.listAt w = [z] := by
    intro w z hw
    rw [listAt_shrink P order hsub]
    split
    · rename_i hc
      subst hc
      exact eq_singleton_of_sublist (hw ▸ hsub) (hleft (by simp [hw]))
    · exact hw
  refine ⟨hsingle u y h.first, hsingle v x h.second, fun hmem => ?_, ?_⟩
  · rcases (mem_shrink P order).mp hmem with ⟨hshort, rfl, -, -⟩ | hmem
    · have hfull := hsingle u y h.first
      rw [listAt_shrink P order hsub, if_pos rfl] at hfull
      rw [hfull, shortens, h.first] at hshort
      simp at hshort
    · exact h.unqueued hmem
  · exact h.asked.imp_left fun hmem => (mem_shrink P order).mpr (Or.inr hmem)

variable [DecidableEq T] {how : Propagator V T}

/-- **A step that goes on keeps two neighbors pinned.** -/
theorem Pinned.step (hq : p.QueueOnNeighbors P) (h : p.Pinned P u v y x)
    (hstep : p.step P how = .goesOn q) : q.Pinned P u v y x := by
  obtain ⟨arc, rest, clock, hmem, hrest, -, hvisit⟩ := visit_of_goesOn hstep
  have hne : arc ≠ (v, u) := by
    rintro rfl
    exact h.unqueued hmem
  obtain ⟨n, hsome, r, hr, hlast⟩ := goesOn_cases how (hq arc hmem) hvisit
  -- the arc may have been taken off the queue, but then it has just been visited
  have htaken : (p.taken rest clock).Pinned P u v y x := by
    refine ⟨h.first, h.second, fun hmem => h.unqueued ((hrest _).mp hmem).2, ?_⟩
    by_cases harc : arc = (u, v)
    · subst harc
      obtain ⟨z, hz⟩ := List.exists_mem_of_ne_nil _ (hsome (by
        rw [show (p.taken rest clock).domains.listAt u = [y] from h.first]
        exact List.cons_ne_nil y []))
      obtain ⟨hzy, hsupport⟩ := List.mem_filter.mp hz
      obtain ⟨z', hz', hcheck⟩ := List.any_eq_true.mp hsupport
      rw [show (p.taken rest clock).domains.listAt u = [y] from h.first] at hzy
      rw [show (p.taken rest clock).domains.listAt v = [x] from h.second] at hz'
      rw [List.mem_singleton.mp hzy, List.mem_singleton.mp hz'] at hcheck
      exact Or.inr hcheck
    · exact h.asked.imp_left fun hmem => (hrest _).mpr ⟨Ne.symm harc, hmem⟩
  have hrevised : r.Pinned P u v y x := by
    rw [hr]
    exact Pinned.shrink (p := (p.taken rest clock).countChecks n)
      ⟨htaken.first, htaken.second, htaken.unqueued, htaken.asked⟩ List.filter_sublist hsome
  rcases hlast with rfl | ⟨t, left, gone, hD, hqueue, hsub, hleft, rfl⟩
  · exact hrevised
  · have hswap : (u, v) ≠ arc.swap := by
      rintro heq
      exact hne (by rw [← Prod.swap_swap arc, ← heq, Prod.swap_prod_mk])
    have htail : t.Pinned P u v y x :=
      ⟨hD ▸ hrevised.first, hD ▸ hrevised.second,
        fun hmem => hrevised.unqueued ((hqueue _).mp hmem).2,
        hrevised.asked.imp_left fun hmem => (hqueue _).mpr ⟨hswap, hmem⟩⟩
    exact htail.shrink (hD ▸ hsub) fun _ => hleft

/-- **At the end of a consistent pass the predicate has been asked** along the arc. -/
theorem Pinned.checked_of_run (hq : p.QueueOnNeighbors P) (h : p.Pinned P u v y x)
    (hok : (p.run P how).1 = .ok .consistent) : P.check u y v x = true := by
  obtain ⟨q, hpinned, hempty, -⟩ := of_run_eq_consistent (I := fun p => p.Pinned P u v y x)
    (fun _ _ hq h hstep => h.step hq hstep) hq h hok
  exact hpinned.asked.resolve_left (hempty _)

end Pinned

end Pass

/-! ## The propagator -/

namespace Propagator

variable [DecidableEq T] (how : Propagator V T) (P : Problem V T) (s : State V T)
  {arcs : Option (List (Arc V))} (harcs : P.OnNeighbors (arcs.getD P.arcs))
  (trail : Option (Trail V T)) (limit : Limit)
  (hok : (how.propagate P s arcs trail limit).answer = .ok .consistent)

include harcs hok in
/-- A consistent pass leaves a domain alone that is down to one value. -/
theorem choices_eq_singleton {u : V} {y : T} (hu : s.choices P u = [y]) :
    (how.propagate P s arcs trail limit).state.choices P u = [y] := by
  have hD := (Pass.start_frame how (s.domains P) (arcs.getD P.arcs) limit).1
  obtain ⟨d, -, -, hremoved⟩ := how.propagate_conserves P s arcs trail limit
  refine Pass.eq_singleton_of_sublist (hu ▸ (hremoved u).2) ?_
  refine Pass.listAt_ne_nil_of_run (queueOnNeighbors_start how P s harcs limit) hok ?_
  rw [hD, show (s.domains P).listAt u = [y] from hu]
  exact List.cons_ne_nil y []

include harcs hok in
/-- **A consistent pass asks from `u` to `v`**, if both are down to one value and it starts with
that arc, but not with the reverse one. -/
theorem check_of_consistent {u v : V} {y x : T} (hu : s.choices P u = [y])
    (hv : s.choices P v = [x]) (hin : (u, v) ∈ arcs.getD P.arcs)
    (hout : (v, u) ∉ arcs.getD P.arcs) :
    P.check u y v x = true := by
  have hD := (Pass.start_frame how (s.domains P) (arcs.getD P.arcs) limit).1
  have hpinned : (Pass.start how (s.domains P) (arcs.getD P.arcs) limit).Pinned P u v y x :=
    ⟨by rw [hD]; exact hu, by rw [hD]; exact hv,
      fun hmem => hout ((Pass.mem_start _ _ _ _ _).mp hmem),
      Or.inl ((Pass.mem_start _ _ _ _ _).mpr hin)⟩
  exact hpinned.checked_of_run (queueOnNeighbors_start how P s harcs limit) hok

end Propagator

end BinaryCsp
