import BinaryCsp.Proofs.Propagation.Removal
import BinaryCsp.Search.Inference

/-!
# Values are moved between domains and trails, never lost

`State.Loses P s s' d` says that the way from the state `s` to the state `s'` has taken exactly the
values `d` out of the domains.  Suppositions, prunings and inferences lose what they put on the
trail (`State.loses_suppose`, `State.loses_prune`, `Inference.Notes`).

The other way round, `State.restore_eq_ok` says when a trail can be put back: if no value of it
stands in its domain, and none occurs in it twice.  It then goes to the ends of the domains.
-/

namespace BinaryCsp

variable {V T σ : Type} [DecidableEq V]

namespace State

variable (P : Problem V T)

/-! ## Choices -/

@[simp] lemma choices_withDomains (s : State V T) (D : Domains V T) (v : V) :
    (s.withDomains D).choices P v = D.listAt v := rfl

/-! ## Taking values out -/

/-- The way from one state to another has taken these values out of the domains. -/
def Loses (s s' : State V T) (d : Trail V T) : Prop :=
  ∀ v, (s'.choices P v ++ Trail.valuesOf d v).Perm (s.choices P v)

variable {P}

lemma Loses.nil (s : State V T) : Loses P s s [] := by
  intro v
  simp

lemma Loses.trans {s s' s'' : State V T} {d e : Trail V T} (h : Loses P s s' d)
    (h' : Loses P s' s'' e) : Loses P s s'' (d ++ e) := by
  intro v
  rw [Trail.valuesOf_append]
  calc (s''.choices P v ++ (Trail.valuesOf d v ++ Trail.valuesOf e v)).Perm
        (s''.choices P v ++ (Trail.valuesOf e v ++ Trail.valuesOf d v)) :=
      List.perm_append_comm.append_left _
    _ = s''.choices P v ++ Trail.valuesOf e v ++ Trail.valuesOf d v :=
      (List.append_assoc ..).symm
    List.Perm _ (s'.choices P v ++ Trail.valuesOf d v) := (h' v).append_right _
    List.Perm _ (s.choices P v) := h v

/-- What is left of a domain lists no value twice, if the domain did not. -/
lemma Loses.nodup {s s' : State V T} {d : Trail V T} (h : Loses P s s' d) {v : V}
    (hnd : (s.choices P v).Nodup) : (s'.choices P v).Nodup :=
  (List.nodup_append.mp ((h v).nodup_iff.mpr hnd)).1

/-- What is lost is of declared variables, if the others keep their values: no value is in two
places. -/
lemma Loses.declared {s s' : State V T} {d : Trail V T} (h : Loses P s s' d)
    (hnd : ∀ u, (s.choices P u).Nodup)
    (hstay : ∀ u, u ∉ P.vars → s.choices P u ⊆ s'.choices P u) : ∀ e ∈ d, e.1 ∈ P.vars := by
  intro e he
  by_contra hundeclared
  have hlost : e.2 ∈ Trail.valuesOf d e.1 := Trail.mem_valuesOf.mpr he
  have hstays := hstay e.1 hundeclared ((h e.1).mem_iff.mp (List.mem_append_right _ hlost))
  have hboth := ((h e.1).nodup_iff).mpr (hnd e.1)
  exact (List.nodup_append.mp hboth).2.2 e.2 hstays e.2 hlost rfl

/-- Cutting one domain down loses what goes of it. -/
lemma loses_insert {s : State V T} {v : V} {left gone : List T}
    (h : (left ++ gone).Perm (s.choices P v)) :
    Loses P s (s.withDomains ((s.domains P).insert v left)) (gone.map fun x => (v, x)) := by
  intro w
  rw [choices_withDomains, PartialMap.listAt_insert, Trail.valuesOf_map]
  split
  · rename_i hv
    exact hv ▸ h
  · rw [List.append_nil]
    rfl

section Operations

variable [DecidableEq T]

/-- **What a supposition can do**: restrict the domain of a declared variable to a value of it, or
be refused and change no domain. -/
theorem suppose_cases (P : Problem V T) (s : State V T) (v : V) (x : T) :
    (v ∈ P.vars ∧ x ∈ s.choices P v ∧ s.suppose P v x
      = (.ok (((s.choices P v).filter fun y => !decide (y = x)).map fun y => (v, y)),
        s.withDomains ((s.domains P).insert v [x]))) ∨
      ∃ f, s.suppose P v x = (.error f, s.materialize P) := by
  by_cases hv : v ∈ P.vars
  · by_cases hx : x ∈ s.choices P v
    · refine Or.inl ⟨hv, hx, ?_⟩
      exact (if_pos hv).trans (if_pos hx)
    · refine Or.inr ⟨.valueNotInDomain v x, ?_⟩
      exact (if_pos hv).trans (if_neg hx)
  · refine Or.inr ⟨.unknownVariable v, ?_⟩
    exact if_neg hv

/-- A value of a list without duplicates, and all the others. -/
lemma perm_singleton_append {l : List T} {x : T} (hnd : l.Nodup) (hx : x ∈ l) :
    ([x] ++ l.filter fun y => !decide (y = x)).Perm l := by
  have herase : (l.filter fun y => !decide (y = x)) = l.erase x := by
    rw [hnd.erase_eq_filter]
    exact List.filter_congr fun y _ => by simp [bne, beq_eq_decide]
  rw [herase]
  exact (List.perm_cons_erase hx).symm

/-- **A supposition loses what its trail holds**, provided that the domain has no duplicates: of
equal values it would keep but one. -/
theorem loses_suppose {s s' : State V T} {v : V} {x : T} {t : Trail V T}
    (hnd : (s.choices P v).Nodup) (h : s.suppose P v x = (.ok t, s')) :
    Loses P s s' t ∧ s'.current ≠ none := by
  rcases suppose_cases P s v x with ⟨-, hx, heq⟩ | ⟨f, heq⟩
  · cases heq.symm.trans h
    exact ⟨loses_insert (perm_singleton_append hnd hx), nofun⟩
  · cases heq.symm.trans h

/-- What the domains are once a supposition was made. -/
lemma choices_of_suppose {s s' : State V T} {v : V} {x : T} {t : Trail V T}
    (h : s.suppose P v x = (.ok t, s')) :
    x ∈ s.choices P v ∧ ∀ u, s'.choices P u = if v = u then [x] else s.choices P u := by
  rcases suppose_cases P s v x with ⟨-, hx, heq⟩ | ⟨f, heq⟩
  · cases heq.symm.trans h
    exact ⟨hx, fun u => PartialMap.listAt_insert _ _ _ _⟩
  · cases heq.symm.trans h

/-- **A value that stands in its domain can be supposed.** -/
theorem exists_suppose {s : State V T} {v : V} {x : T} (hv : v ∈ P.vars)
    (hnd : (s.choices P v).Nodup) (hx : x ∈ s.choices P v) :
    ∃ t s', s.suppose P v x = (.ok t, s') ∧ Loses P s s' t ∧ s'.current ≠ none ∧
      ∀ u, s'.choices P u = if v = u then [x] else s.choices P u := by
  rcases h : s.suppose P v x with ⟨f | t, s'⟩
  · rw [suppose, if_pos hv, if_pos (by exact hx)] at h
    cases h
  · obtain ⟨hloses, hmade⟩ := loses_suppose hnd h
    exact ⟨t, s', rfl, hloses, hmade, (choices_of_suppose h).2⟩

theorem loses_prune {s s' : State V T} {v : V} {x : T} (h : s.prune P v x = .ok s') :
    Loses P s s' [(v, x)] ∧ s'.current ≠ none := by
  rcases prune_cases P s v x with ⟨-, hx, heq⟩ | ⟨f, heq⟩
  · cases heq.symm.trans h
    have hperm : ((s.choices P v).erase x ++ [x]).Perm (s.choices P v) :=
      List.perm_append_comm.trans (List.perm_cons_erase hx).symm
    exact ⟨loses_insert hperm, nofun⟩
  · cases heq.symm.trans h

end Operations

/-! ## Putting values back -/

section Restoring

variable [DecidableEq T]

/-- **A trail goes back into domains that hold no value of it.** -/
theorem restoreInto_eq_ok (P : Problem V T) {t : Trail V T} {D : Domains V T}
    (hdecl : ∀ e ∈ t, e.1 ∈ P.vars) (hnd : ∀ v, (D.listAt v ++ Trail.valuesOf t v).Nodup) :
    ∃ D', restoreInto P t D = (.ok (), D') ∧
      ∀ v, D'.listAt v = D.listAt v ++ Trail.valuesOf t v := by
  induction t generalizing D with
  | nil => exact ⟨D, rfl, fun v => by simp⟩
  | cons e t ih =>
    obtain ⟨v, x⟩ := e
    have hfresh : x ∉ D.listAt v := by
      intro hx
      have hv := hnd v
      rw [Trail.valuesOf_cons, if_pos rfl] at hv
      exact (List.nodup_append.mp hv).2.2 x hx x (by simp) rfl
    have hlist : ∀ w, (D.insert v (D.listAt v ++ [x])).listAt w ++ Trail.valuesOf t w
        = D.listAt w ++ Trail.valuesOf ((v, x) :: t) w := by
      intro w
      rw [PartialMap.listAt_insert, Trail.valuesOf_cons]
      by_cases hw : v = w
      · simp [hw]
      · simp [hw]
    obtain ⟨D', heq, hD'⟩ := ih (D := D.insert v (D.listAt v ++ [x]))
      (fun e he => hdecl e (List.mem_cons_of_mem _ he)) (fun w => by rw [hlist w]; exact hnd w)
    refine ⟨D', ?_, fun w => (hD' w).trans (hlist w)⟩
    rw [restoreInto, if_pos (hdecl (v, x) List.mem_cons_self), if_neg hfresh, heq]

lemma listAt_of_restoreInto {t : Trail V T} {D D' : Domains V T}
    (h : restoreInto P t D = (.ok (), D')) (v : V) :
    D'.listAt v = D.listAt v ++ Trail.valuesOf t v := by
  induction t generalizing D with
  | nil =>
    cases h
    rw [Trail.valuesOf_nil, List.append_nil]
  | cons e t ih =>
    obtain ⟨u, x⟩ := e
    rw [restoreInto] at h
    split at h
    · split at h
      · cases h
      · rw [ih h, PartialMap.listAt_insert, Trail.valuesOf_cons]
        by_cases hu : u = v
        · simp [hu]
        · simp [hu]
    · cases h

/-- **A trail can be put back** if what it holds is of declared variables and neither stands in the
domains nor occurs in it twice. -/
theorem restore_eq_ok (P : Problem V T) {s : State V T} {t : Trail V T}
    (hcur : s.current = none → t = []) (hdecl : ∀ e ∈ t, e.1 ∈ P.vars)
    (hnd : ∀ v, (s.choices P v ++ Trail.valuesOf t v).Nodup) :
    ∃ s', s.restore P t = (.ok (), s') ∧
      (∀ v, s'.choices P v = s.choices P v ++ Trail.valuesOf t v) ∧
      (s'.current = none ↔ s.current = none) ∧ s'.assigns = s.assigns := by
  rcases h : s.current with - | D
  · obtain rfl := hcur h
    refine ⟨s, ?_, fun v => by simp, by simp [h], rfl⟩
    simp only [restore, h, List.isEmpty_nil, if_true]
  · have hD : s.domains P = D := by rw [domains, h, Option.getD_some]
    simp only [choices, hD] at hnd ⊢
    obtain ⟨D', heq, hD'⟩ := restoreInto_eq_ok P hdecl hnd
    refine ⟨s.withDomains D', ?_, hD', by simp [withDomains], rfl⟩
    simp only [restore, h, heq]

/-- **A trail that is put back has gone to the ends of the domains.** -/
theorem choices_of_restore {s s' : State V T} {t : Trail V T} (h : s.restore P t = (.ok (), s'))
    (v : V) : s'.choices P v = s.choices P v ++ Trail.valuesOf t v := by
  rcases hcur : s.current with - | D
  · rw [restore, hcur] at h
    dsimp only at h
    split at h
    · rename_i hempty
      cases h
      rw [List.isEmpty_iff.mp hempty, Trail.valuesOf_nil, List.append_nil]
    · cases h
  · have hD : s.domains P = D := by rw [domains, hcur, Option.getD_some]
    rcases hinto : restoreInto P t D with ⟨answer, D'⟩
    simp only [restore, hcur, hinto] at h
    cases h
    show D'.listAt v = (s.domains P).listAt v ++ Trail.valuesOf t v
    rw [hD]
    exact listAt_of_restoreInto hinto v

omit [DecidableEq T] in
/-- What is put back is no longer lost. -/
lemma Loses.undo {s s' s'' : State V T} {d t : Trail V T} (h : Loses P s s' (d ++ t))
    (hback : ∀ v, s''.choices P v = s'.choices P v ++ Trail.valuesOf t v) : Loses P s s'' d := by
  intro v
  have hv := h v
  rw [Trail.valuesOf_append] at hv
  rw [hback v, List.append_assoc]
  exact (List.perm_append_comm.append_left _).trans hv

end Restoring

end State

lemma Problem.mem_vars_of_mem_domain (P : Problem V T) {v : V} {x : T} (h : x ∈ P.domain v) :
    v ∈ P.vars := by
  rw [← P.mem_baseline, PartialMap.mem_iff_isSome]
  rw [Problem.domain, PartialMap.listAt] at h
  cases hv : P.baseline.get? v with
  | none => simp [hv] at h
  | some l => rfl

/-! ## Inferences -/

namespace Inference

variable {P : Problem V T}

/-- What an inference takes out of the domains it notes at the end of the trail, also when it is
refused; nothing is taken before there are current domains. -/
def Notes (rule : Inference P σ) : Prop :=
  ∀ v x a (t : Trial V T σ), ∃ d, (rule.infer v x a t).2.trail = t.trail ++ d ∧
    t.state.Loses P (rule.infer v x a t).2.state d ∧
    ((rule.infer v x a t).2.state.current = Option.none → t.state.current = Option.none ∧ d = [])

theorem notes_none : (Inference.none P : Inference P σ).Notes := by
  intro v x a t
  exact ⟨[], (List.append_nil _).symm, .nil _, fun h => ⟨h, rfl⟩⟩

/-- Narrowing one variable moves values to the trail. -/
lemma notes_narrow (v : V) (x : T) (w : V) (t : Trial V T σ) :
    ∃ d, (narrow P v x w t).trail = t.trail ++ d ∧
      t.state.Loses P (narrow P v x w t).state d ∧ (narrow P v x w t).state.current ≠ Option.none :=
  ⟨_, rfl, State.loses_insert (List.filter_append_perm _ _), nofun⟩

lemma notes_narrowAll (v : V) (x : T) (ws : List V) {t : Trial V T σ}
    (ht : t.state.current ≠ Option.none) :
    ∃ d, (narrowAll P v x ws t).2.trail = t.trail ++ d ∧
      t.state.Loses P (narrowAll P v x ws t).2.state d ∧
      (narrowAll P v x ws t).2.state.current ≠ Option.none := by
  induction ws generalizing t with
  | nil => exact ⟨[], (List.append_nil _).symm, .nil _, ht⟩
  | cons w ws ih =>
    obtain ⟨d, htrail, hloses, hcur⟩ := notes_narrow (P := P) v x w t
    rw [narrowAll]
    split
    · exact ⟨d, htrail, hloses, hcur⟩
    · obtain ⟨e, htrail', hloses', hcur'⟩ := ih hcur
      exact ⟨d ++ e, by rw [htrail', htrail, List.append_assoc], hloses.trans hloses', hcur'⟩

theorem notes_forwardChecking : (forwardChecking P : Inference P σ).Notes := by
  intro v x a t
  simp only [forwardChecking]
  split
  · exact ⟨[], (List.append_nil _).symm, .nil _, nofun⟩
  · rename_i ws hws
    obtain ⟨d, htrail, hloses, hcur⟩ := notes_narrowAll (P := P) v x
      (ws.filter fun w => !decide (w ∈ a)) (t := { t with state := t.state.materialize P }) nofun
    exact ⟨d, htrail, hloses, fun h => absurd h hcur⟩

theorem notes_arcConsistency [DecidableEq T] (how : Propagator V T) :
    (arcConsistency P how : Inference P σ).Notes := by
  intro v x a t
  simp only [arcConsistency]
  split
  · exact ⟨[], (List.append_nil _).symm, .nil _, fun h => ⟨h, rfl⟩⟩
  · rename_i ws hws
    obtain ⟨d, htrail, -, hperm⟩ := how.propagate_conserves P t.state
      (some (ws.map fun w => (w, v))) (some t.trail) t.context.limit
    refine ⟨d, ?_⟩
    split <;> exact ⟨by simp [htrail], fun w => (hperm w).1, nofun⟩

end Inference

end BinaryCsp
