import BinaryCsp.Proofs.Propagation.Pruning

/-!
# What propagation removes is what its trail says

`Trail.valuesOf` reads a trail variable by variable.  Pruning the values of a trail takes these
values out of the domains, and leaves the others in their order (`State.choices_of_pruneAllOnto`).

`Pass.Removes p q d` says that the way from the pass `p` to the pass `q` has taken the values `d`
out of the domains, put them at the end of the trail, and counted them: every domain of `p` is, up
to order, the domain of `q` together with the values that `d` holds of its variable, and what is
left stands in its old order.  Since steps prune what they take out, they remove in this sense
(`removes_step`).

Of a whole propagation `Propagator.propagate_conserves` says the same, and
`Propagator.propagate_prunes` also how its state and its trail come about.
-/

namespace BinaryCsp

variable {V T : Type} [DecidableEq V]

/-! ## Trails, variable by variable -/

/-- The values that a trail holds of a variable, in the order in which they were taken. -/
def Trail.valuesOf (t : Trail V T) (v : V) : List T :=
  t.filterMap fun e => if e.1 = v then some e.2 else none

@[simp] lemma Trail.valuesOf_nil (v : V) : Trail.valuesOf ([] : Trail V T) v = [] := rfl

@[simp] lemma Trail.valuesOf_append (s t : Trail V T) (v : V) :
    Trail.valuesOf (s ++ t) v = Trail.valuesOf s v ++ Trail.valuesOf t v :=
  List.filterMap_append

lemma Trail.valuesOf_cons (e : V × T) (t : Trail V T) (v : V) :
    Trail.valuesOf (e :: t) v = (if e.1 = v then [e.2] else []) ++ Trail.valuesOf t v := by
  unfold Trail.valuesOf
  rw [List.filterMap_cons]
  split <;> rename_i h <;> split at h <;> simp_all

@[simp] lemma Trail.valuesOf_map (w : V) (xs : List T) (v : V) :
    Trail.valuesOf (xs.map fun x => (w, x)) v = if w = v then xs else [] := by
  induction xs with
  | nil => simp
  | cons x xs ih =>
    rw [List.map_cons, Trail.valuesOf_cons, ih]
    split <;> rfl

lemma Trail.mem_valuesOf {t : Trail V T} {v : V} {x : T} :
    x ∈ Trail.valuesOf t v ↔ (v, x) ∈ t := by
  rw [Trail.valuesOf]
  rw [List.mem_filterMap]
  constructor
  · rintro ⟨e, he, hx⟩
    split at hx
    · rename_i hv
      obtain rfl := Option.some.inj hx
      exact hv ▸ he
    · cases hx
  · intro h
    exact ⟨(v, x), h, by simp⟩

variable [DecidableEq T] {P : Problem V T}

/-! ## Removing -/

/-- **What pruning leaves** of the choices of a variable stands in its old order, and together with
the pruned values it is what there was. -/
theorem State.choices_of_pruneAllOnto {d : Trail V T} {s s' : State V T}
    {trail trail' : Option (Trail V T)} (h : State.pruneAllOnto P d s trail = .ok (s', trail'))
    (v : V) :
    (s'.choices P v ++ Trail.valuesOf d v).Perm (s.choices P v) ∧
      (s'.choices P v).Sublist (s.choices P v) := by
  induction d generalizing s trail with
  | nil =>
    cases h
    simp
  | cons e d ih =>
    obtain ⟨u, x⟩ := e
    rw [pruneAllOnto, pruneOnto] at h
    rcases prune_cases P s u x with ⟨-, hx, heq⟩ | ⟨f, heq⟩
    · rw [heq] at h
      obtain ⟨hperm, hsub⟩ := ih h
      have hnext : (s.withDomains ((s.domains P).insert u ((s.choices P u).erase x))).choices P v
          = if u = v then (s.choices P u).erase x else s.choices P v :=
        PartialMap.listAt_insert _ _ _ _
      rw [hnext] at hperm hsub
      rw [Trail.valuesOf_cons]
      by_cases hu : u = v
      · subst hu
        rw [if_pos rfl] at hperm hsub
        rw [if_pos rfl]
        refine ⟨?_, hsub.trans List.erase_sublist⟩
        exact List.perm_middle.trans ((hperm.cons x).trans (List.perm_cons_erase hx).symm)
      · rw [if_neg hu] at hperm hsub
        rw [if_neg hu]
        exact ⟨hperm, hsub⟩
    · rw [heq] at h
      cases h

namespace Pass

/-- The way from one pass to another has taken these values out of the domains. -/
structure Removes (p q : Pass V T) (d : Trail V T) : Prop where
  removed : q.removed = p.removed ++ d
  prunings : q.prunings = p.prunings + d.length
  perm : ∀ v, (q.domains.listAt v ++ Trail.valuesOf d v).Perm (p.domains.listAt v)
  sublist : ∀ v, (q.domains.listAt v).Sublist (p.domains.listAt v)

/-- What is pruned is removed. -/
lemma Prunes.removes {p q : Pass V T} {d : Trail V T} (h : Prunes P p q d) : Removes p q d where
  removed := h.removed
  prunings := h.prunings
  perm v := (State.choices_of_pruneAllOnto (h.pruned .initial none) v).1
  sublist v := (State.choices_of_pruneAllOnto (h.pruned .initial none) v).2

variable (P)

theorem removes_step (how : Propagator V T) (p : Pass V T) :
    ∃ d, Removes p (p.step P how).pass d := by
  obtain ⟨d, hd⟩ := exists_prunes_step (P := P) how p
  exact ⟨d, hd.removes⟩

end Pass

/-! ## The propagator -/

/-- A propagation prunes: its trail is the one it was given, followed by the values that it has
pruned, and pruning them from the same state leads to the state that it leaves. -/
lemma Propagator.exists_pruned (how : Propagator V T) (P : Problem V T) (s : State V T)
    (arcs : Option (List (Arc V))) (trail : Option (Trail V T)) (limit : Limit) :
    ∃ d : Trail V T, (how.propagate P s arcs trail limit).trail = trail.map (· ++ d) ∧
      (how.propagate P s arcs trail limit).prunings = d.length ∧
      ∀ onto, State.pruneAllOnto P d (s.materialize P) onto
        = .ok ((how.propagate P s arcs trail limit).state, onto.map (· ++ d)) := by
  obtain ⟨d, hd⟩ := Pass.exists_prunes_run (P := P) how
    (Pass.start how (s.domains P) (arcs.getD P.arcs) limit)
  obtain ⟨hD, hremoved, hprunings, -⟩ := Pass.start_frame how (s.domains P) (arcs.getD P.arcs) limit
  have htrail := hd.removed
  have hcount := hd.prunings
  have hpruned := hd.pruned s
  rw [hremoved, List.nil_append] at htrail
  rw [hprunings, Nat.zero_add] at hcount
  rw [hD] at hpruned
  exact ⟨d, by simp only [propagate, htrail], hcount, hpruned⟩

/-- The trail of a propagation, whatever its answer, is the trail it was given followed by what it
removed; each variable's choices before are, up to order, those after and what was removed of them,
and what is left keeps its order. -/
theorem Propagator.propagate_conserves (how : Propagator V T) (P : Problem V T)
    (s : State V T) (arcs : Option (List (Arc V))) (trail : Option (Trail V T)) (limit : Limit) :
    ∃ d : Trail V T, (how.propagate P s arcs trail limit).trail = trail.map (· ++ d) ∧
      (how.propagate P s arcs trail limit).prunings = d.length ∧
      ∀ v, ((how.propagate P s arcs trail limit).state.choices P v
          ++ Trail.valuesOf d v).Perm (s.choices P v) ∧
        ((how.propagate P s arcs trail limit).state.choices P v).Sublist (s.choices P v) := by
  obtain ⟨d, htrail, hprunings, hpruned⟩ := how.exists_pruned P s arcs trail limit
  have hkept := State.choices_of_pruneAllOnto (hpruned none)
  exact ⟨d, htrail, hprunings, hkept⟩

/-- **The trail records exactly what a propagation has removed**, whatever its answer, for any arcs
to start from, any order of the queue and any limit.  The trail then is the one that was given,
followed by as many values as were pruned.  What is left of the choices of a variable stands in its
old order, and makes up the choices before together with the recorded values of the variable.
Pruning the recorded values one after the other, with or without a trail, is never refused and
leads to the same state and trail; and a propagation without a trail does all the same. -/
theorem Propagator.propagate_prunes (how : Propagator V T) (P : Problem V T) (s : State V T)
    (arcs : Option (List (Arc V))) (t : Trail V T) (limit : Limit) :
    let after := how.propagate P s arcs (some t) limit
    ∃ d : Trail V T, after.trail = some (t ++ d) ∧ after.prunings = d.length ∧
      (∀ v, (after.state.choices P v).Sublist (s.choices P v) ∧
        (s.choices P v).Perm (after.state.choices P v ++ Trail.valuesOf d v)) ∧
      (∀ v ∈ P.vars, after.state.currentDomain? P v = .ok (after.state.choices P v)) ∧
      (∀ trail, State.pruneAllOnto P d (s.materialize P) trail
        = .ok (after.state, trail.map (· ++ d))) ∧
      how.propagate P s arcs none limit = { after with trail := none } := by
  intro after
  obtain ⟨d, htrail, hprunings, hpruned⟩ := how.exists_pruned P s arcs (some t) limit
  have hkept := State.choices_of_pruneAllOnto (hpruned none)
  refine ⟨d, htrail, hprunings, fun v => ⟨(hkept v).2, (hkept v).1.symm⟩, fun v hv => ?_,
    hpruned, rfl⟩
  exact if_pos hv

end BinaryCsp
