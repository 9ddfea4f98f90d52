import BinaryCsp.Proofs.Propagation.Step
import BinaryCsp.Proofs.Propagation.Support

/-!
# Propagation prunes value by value

A visit cuts a domain down to the values that are left, and notes those that are gone.  The values
that are left were found in different ways: by sifting, by partitioning, by striking out, or by
erasing.  Whichever way it was, the domain is the one that comes about if the values that are gone
are pruned one after the other, each of them noted on the trail (`State.pruneAllOnto`).  None of
these prunings is refused, since what goes from a domain is always a part of it.

`Pass.Prunes p q d` says that of the way from the pass `p` to the pass `q`.  Each part of a visit
prunes in this sense, hence so does a step (`exists_prunes_step`) and a whole pass
(`exists_prunes_run`).  No assumption is made on the predicate, on the queue, which may hold arcs
from a variable to itself and undeclared variables, or on the domains, which may list a value
twice.
-/

namespace BinaryCsp

open Support

variable {V T : Type} [DecidableEq V] [DecidableEq T]

namespace State

/-! ## Pruning many values -/

/-- Rules out the values of a trail one after the other, and notes each of them at the end of
another trail, if there is one. -/
def pruneAllOnto (P : Problem V T) :
    Trail V T → State V T → Option (Trail V T) → Except (Fault V T) (State V T × Option (Trail V T))
  | [], s, trail => .ok (s, trail)
  | (v, x) :: d, s, trail =>
    match s.pruneOnto P v x trail with
    | .error f => .error f
    | .ok (s, trail) => pruneAllOnto P d s trail

variable {P : Problem V T} {s : State V T} {trail : Option (Trail V T)}

/-- **What a prune can do**: take a value out of a current domain, the first of equal ones, or be
refused. -/
theorem prune_cases (P : Problem V T) (s : State V T) (v : V) (x : T) :
    (s.current ≠ none ∧ x ∈ s.choices P v ∧ s.prune P v x
      = .ok (s.withDomains ((s.domains P).insert v ((s.choices P v).erase x)))) ∨
      ∃ f, s.prune P v x = .error f := by
  rcases hcur : s.current with - | D
  · refine Or.inr ⟨.pruningNotSupported, ?_⟩
    simp only [prune, hcur]
  · have hD : s.domains P = D := by rw [domains, hcur, Option.getD_some]
    simp only [prune, hcur, choices, hD]
    by_cases hv : v ∈ P.vars
    · by_cases hx : x ∈ D.listAt v
      · exact Or.inl ⟨Option.some_ne_none D, hx, by rw [if_pos hv, if_pos hx]⟩
      · exact Or.inr ⟨.valueNotInDomain v x, by rw [if_pos hv, if_neg hx]⟩
    · exact Or.inr ⟨.unknownVariable v, by rw [if_neg hv]⟩

/-- A value that stands in the domain of a declared variable is not refused. -/
lemma pruneOnto_eq_ok {D : Domains V T} {v : V} {x : T} (hv : v ∈ P.vars) (hx : x ∈ D.listAt v) :
    (s.withDomains D).pruneOnto P v x trail
      = .ok (s.withDomains (D.insert v ((D.listAt v).erase x)), trail.map (· ++ [(v, x)])) := by
  have hprune : (s.withDomains D).prune P v x
      = .ok (s.withDomains (D.insert v ((D.listAt v).erase x))) :=
    (if_pos hv).trans (if_pos hx)
  rw [pruneOnto, hprune]
  rfl

lemma pruneAllOnto_append {d e : Trail V T} {s' : State V T} {trail' : Option (Trail V T)}
    (h : pruneAllOnto P d s trail = .ok (s', trail')) :
    pruneAllOnto P (d ++ e) s trail = pruneAllOnto P e s' trail' := by
  induction d generalizing s trail with
  | nil =>
    cases h
    rfl
  | cons entry d ih =>
    obtain ⟨v, x⟩ := entry
    rw [pruneAllOnto] at h
    rw [List.cons_append, pruneAllOnto]
    split at h
    · cases h
    · exact ih h

omit [DecidableEq V] [DecidableEq T] in
lemma map_append_append (trail : Option (Trail V T)) (d e : Trail V T) :
    (trail.map (· ++ d)).map (· ++ e) = trail.map (· ++ (d ++ e)) := by
  rw [Option.map_map]
  exact congrArg (trail.map ·) (funext fun t => List.append_assoc t d e)

/-- **Any part of a domain can be pruned**; the values go one by one, and of equal values the
first. -/
theorem pruneAllOnto_map {D : Domains V T} {v : V} (hv : v ∈ P.vars) {gone : List T}
    (hne : gone ≠ []) (hsub : gone.Subperm (D.listAt v)) :
    pruneAllOnto P (gone.map fun x => (v, x)) (s.withDomains D) trail
      = .ok (s.withDomains (D.insert v (eraseAll (D.listAt v) gone)),
          trail.map (· ++ gone.map fun x => (v, x))) := by
  induction gone generalizing D trail with
  | nil => exact absurd rfl hne
  | cons x gone ih =>
    rw [List.map_cons, pruneAllOnto, pruneOnto_eq_ok hv (hsub.subset List.mem_cons_self)]
    have hlist : (D.insert v ((D.listAt v).erase x)).listAt v = (D.listAt v).erase x := by
      rw [PartialMap.listAt_insert, if_pos rfl]
    have hrest : gone.Subperm ((D.insert v ((D.listAt v).erase x)).listAt v) := by
      rw [hlist]
      simpa using hsub.erase x
    cases gone with
    | nil => rfl
    | cons y gone =>
      have hnext : pruneAllOnto P ((y :: gone).map fun x => (v, x))
          (s.withDomains (D.insert v ((D.listAt v).erase x))) (trail.map (· ++ [(v, x)])) = _ :=
        ih (List.cons_ne_nil y gone) hrest
      rw [hlist, PartialMap.insert_insert, map_append_append] at hnext
      exact hnext

end State

namespace Pass

variable {P : Problem V T}

/-! ## Pruning -/

/-- The way from one pass to another is to prune these values one after the other. -/
structure Prunes (P : Problem V T) (p q : Pass V T) (d : Trail V T) : Prop where
  removed : q.removed = p.removed ++ d
  prunings : q.prunings = p.prunings + d.length
  pruned : ∀ (s : State V T) (trail : Option (Trail V T)),
    State.pruneAllOnto P d (s.withDomains p.domains) trail
      = .ok (s.withDomains q.domains, trail.map (· ++ d))

/-- A way that changes neither domains nor trail prunes nothing. -/
lemma prunes_nil {p q : Pass V T} (hdomains : q.domains = p.domains)
    (hremoved : q.removed = p.removed) (hprunings : q.prunings = p.prunings) :
    Prunes P p q [] where
  removed := by rw [hremoved, List.append_nil]
  prunings := hprunings
  pruned s trail := by
    rw [hdomains]
    cases trail <;> simp [State.pruneAllOnto]

lemma SameDomains.prunes {p q : Pass V T} (h : SameDomains p q) : Prunes P p q [] :=
  prunes_nil h.domains h.removed h.prunings

lemma Prunes.trans {p q r : Pass V T} {d e : Trail V T} (h : Prunes P p q d)
    (h' : Prunes P q r e) : Prunes P p r (d ++ e) where
  removed := by rw [h'.removed, h.removed, List.append_assoc]
  prunings := by rw [h'.prunings, h.prunings, List.length_append, Nat.add_assoc]
  pruned s trail := by
    rw [State.pruneAllOnto_append (h.pruned s trail), h'.pruned, State.map_append_append]

/-- A way that changes neither domains nor trail may be put in front or behind. -/
lemma Prunes.of_same {p q r : Pass V T} {d : Trail V T} (h : SameDomains p q)
    (h' : Prunes P q r d) : Prunes P p r d := by
  simpa using h.prunes.trans h'

lemma Prunes.then_same {p q r : Pass V T} {d : Trail V T} (h : Prunes P p q d)
    (h' : SameDomains q r) : Prunes P p r d := by
  simpa using h.trans h'.prunes

variable (order : ArcOrder V T)

/-- Cutting a domain down prunes what is gone, if what is left is what pruning leaves. -/
lemma prunes_cut {p : Pass V T} {v : V} {left gone : List T} (hv : v ∈ P.vars)
    (hshort : p.shortens v left = true) (hsub : gone.Sublist (p.domains.listAt v))
    (hleft : left = eraseAll (p.domains.listAt v) gone) :
    Prunes P p (p.cut v left gone) (gone.map fun x => (v, x)) where
  removed := rfl
  prunings := by rw [cut, List.length_map]
  pruned s trail := by
    have hne : gone ≠ [] := by
      rintro rfl
      have hlt : left.length < (p.domains.listAt v).length := of_decide_eq_true hshort
      rw [hleft] at hlt
      exact Nat.lt_irrefl _ hlt
    rw [State.pruneAllOnto_map hv hne hsub.subperm, ← hleft]
    rfl

lemma exists_prunes_shrink {p : Pass V T} {v : V} (except : V) {left gone : List T}
    (hv : v ∈ P.vars) (hsub : gone.Sublist (p.domains.listAt v))
    (hleft : left = eraseAll (p.domains.listAt v) gone) :
    ∃ d, Prunes P p (p.shrink P order v except left gone) d := by
  rw [shrink]
  split
  · rename_i hshort
    exact ⟨_, (prunes_cut hv hshort hsub hleft).then_same (sameDomains_requeue P order v except _)⟩
  · exact ⟨[], prunes_nil rfl rfl rfl⟩

/-! ## Visits -/

lemma remnant_eq_eraseAll (a b : V) (values targets : List T) (check : T → T → Bool) :
    remnant a b values (sift check (supporters a b targets) values)
      = eraseAll values (sift check (supporters a b targets) values).removed.toList := by
  rw [remnant]
  split
  · rfl
  · rename_i hab
    have hconst : supporters a b targets = fun _ => targets := funext fun gone => if_neg hab
    rw [hconst, kept_sift, removed_sift, eraseAll_filter]

lemma exists_prunes_visitAc3 (a b : V) (p : Pass V T) :
    ∃ d, Prunes P p (p.visitAc3 P order a b).pass d := by
  rw [visitAc3]
  split
  · rename_i ha
    split
    · let found := sift (fun x y => P.check a x b y) (supporters a b (p.domains.listAt b))
        (p.domains.listAt a)
      have hcount := sameDomains_countChecks p found.checks
      dsimp only
      split
      · rename_i hshort
        have hcut := Prunes.of_same hcount (prunes_cut ha hshort
          (removed_sift_sublist _ _ _) (remnant_eq_eraseAll a b _ _ _))
        split
        · exact ⟨_, hcut⟩
        · exact ⟨_, hcut.then_same (sameDomains_requeue P order a b _)⟩
      · exact ⟨[], hcount.prunes⟩
    · exact ⟨[], prunes_nil rfl rfl rfl⟩
  · exact ⟨[], prunes_nil rfl rfl rfl⟩

/-- Settling the reverse arc prunes, provided that the domain of `b` still is the one that was
tested. -/
lemma exists_prunes_settleReverse {a b : V} {p : Pass V T} {xs ys : List T}
    {known : Partition T T} (hb : b ∈ P.vars)
    (hknown : known.Knows (fun x y => P.check a x b y) xs ys) (htested : p.domains.listAt b = ys) :
    ∃ d, Prunes P p (p.settleReverse P order a b known) d := by
  subst htested
  rw [settleReverse]
  split
  · let found := sift (fun y x => P.check b y a x) (fun _ => known.supported.toList) known.unproven
    have hgone : found.removed.toList.Sublist (p.domains.listAt b) :=
      (removed_sift_sublist _ _ _).trans hknown.sublist
    have hleft : known.without (p.domains.listAt b) found.removed.toList
        = eraseAll (p.domains.listAt b) found.removed.toList := by
      simp only [found, removed_sift]
      exact without_eq_eraseAll known hknown.perm hknown.sublist _
    let q := { p with queue := p.queue.remove (b, a) }.countChecks found.checks
    obtain ⟨d, hd⟩ := exists_prunes_shrink (p := q) order a hb hgone hleft
    exact ⟨d, Prunes.of_same (q := q) ⟨rfl, rfl, rfl, rfl⟩ hd⟩
  · exact ⟨[], prunes_nil rfl rfl rfl⟩

lemma exists_prunes_visitAc3b {a b : V} {p : Pass V T} (hfresh : (a, b) ∉ p.queue) :
    ∃ d, Prunes P p (p.visitAc3b P order a b).pass d := by
  rw [visitAc3b]
  split
  · rename_i ha
    split
    · rename_i hb
      let known := Partition.of (fun x y => P.check a x b y) (p.domains.listAt a)
        (p.domains.listAt b)
      have hknown := Partition.knows_of (fun x y => P.check a x b y) (p.domains.listAt a)
        (p.domains.listAt b)
      have hcount := sameDomains_countChecks p known.checks
      have hgone : known.unsupported.toList.Sublist (p.domains.listAt a) := by
        rw [hknown.unsupported]
        exact List.filter_sublist
      have hleft : known.supported.toList
          = eraseAll (p.domains.listAt a) known.unsupported.toList := by
        rw [hknown.supported, hknown.unsupported, eraseAll_filter]
      obtain ⟨d, hd⟩ :=
        exists_prunes_shrink (p := p.countChecks known.checks) order b ha hgone hleft
      have hshrink := Prunes.of_same hcount hd
      dsimp only
      split
      · exact ⟨[], hcount.prunes⟩
      · by_cases hab : a = b
        · -- an arc from a variable to itself is its own reverse, and it is not queued
          subst hab
          have hnot : (a, a) ∉ ((p.countChecks known.checks).shrink P order a a
              known.supported.toList known.unsupported.toList).queue := by
            rw [mem_shrink]
            rintro (⟨-, -, -, hne⟩ | hq)
            · exact hne rfl
            · exact hfresh hq
          refine ⟨d, hshrink.then_same ?_⟩
          rw [settleReverse, if_neg hnot]
          exact ⟨rfl, rfl, rfl, rfl⟩
        · have hsub : known.supported.toList.Sublist (p.domains.listAt a) := by
            rw [hknown.supported]
            exact List.filter_sublist
          have htested : ((p.countChecks known.checks).shrink P order a b known.supported.toList
              known.unsupported.toList).domains.listAt b = p.domains.listAt b := by
            rw [listAt_shrink P order (by exact hsub), if_neg hab]
            rfl
          obtain ⟨e, he⟩ := exists_prunes_settleReverse order hb hknown htested
          exact ⟨d ++ e, hshrink.trans he⟩
    · exact ⟨[], prunes_nil rfl rfl rfl⟩
  · exact ⟨[], prunes_nil rfl rfl rfl⟩

/-- **A visit prunes what it takes out**, if the arc has been taken off the queue. -/
theorem exists_prunes_visit (how : Propagator V T) {arc : Arc V} {p : Pass V T}
    (hfresh : arc ∉ p.queue) : ∃ d, Prunes P p (p.visit P how arc).pass d := by
  rw [visit]
  split
  · exact exists_prunes_visitAc3 how.order _ _ _
  · exact exists_prunes_visitAc3b how.order hfresh

/-! ## Passes -/

/-- **A step prunes what it takes out.** -/
theorem exists_prunes_step (how : Propagator V T) (p : Pass V T) :
    ∃ d, Prunes P p (p.step P how).pass d := by
  rcases step_cases P how p with ⟨clock, hstep, -⟩ | ⟨arc, rest, clock, -, hrest, hstep⟩
  · rw [hstep]
    exact ⟨[], prunes_nil rfl rfl rfl⟩
  · have htaken : Prunes P p (p.taken rest clock) [] := prunes_nil rfl rfl rfl
    rw [hstep]
    split
    · exact ⟨[], htaken⟩
    · have hfresh : arc ∉ (p.taken rest clock).queue := fun h => ((hrest arc).mp h).1 rfl
      obtain ⟨d, hd⟩ := exists_prunes_visit (P := P) how hfresh
      exact ⟨d, by simpa using htaken.trans hd⟩

/-- **A whole pass prunes what it takes out.** -/
theorem exists_prunes_run (how : Propagator V T) (p : Pass V T) :
    ∃ d, Prunes P p (p.run P how).2 d := by
  refine run_preserves (I := fun q => ∃ d, Prunes P p q d) ?_ ⟨[], prunes_nil rfl rfl rfl⟩
  rintro q ⟨d, hd⟩
  obtain ⟨e, he⟩ := exists_prunes_step (P := P) how q
  exact ⟨d ++ e, hd.trans he⟩

end Pass

end BinaryCsp
