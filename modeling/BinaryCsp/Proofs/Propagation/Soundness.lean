import BinaryCsp.Proofs.Propagation.Revision
import BinaryCsp.Proofs.Solutions

/-!
# Propagation removes no value that is needed

A family of values is *mutually supported* if each of its values goes with a value of each
neighbor, whichever of the two variables is asked first.  The values of one solution are such a
family, and so is the greatest arc-consistent family under a symmetric predicate.

A mutually supported family that lies within the domains before a pass still lies within them after
it, and if the pass finds a contradiction the family has no value for some variable
(`Propagator.keeps_supported`).  The two methods reach this by different ways: `ac3` asks each value
of `a` for support in `b`; `ac3b` also removes values of `b`, but only those that go with no
supported value of `a`.  No symmetry of the predicate is assumed.

Hence propagation keeps all solutions, and adds none (`Propagator.propagate_preserves_solutions`).
-/

namespace BinaryCsp

open Support

variable {V T : Type} [DecidableEq V]

/-! ## Families of values -/

/-- Each value of the family goes, in both orders, with a value of each neighbor. -/
def Problem.MutuallySupported (P : Problem V T) (F : V → T → Prop) : Prop :=
  ∀ v, ∀ w ∈ P.neighbors v, ∀ x, F v x →
    ∃ y, F w y ∧ P.check v x w y = true ∧ P.check w y v x = true

/-- All values of the family stand in the domains. -/
def Domains.Holds (D : Domains V T) (F : V → T → Prop) : Prop := ∀ v x, F v x → x ∈ D.listAt v

namespace Problem

variable {P : Problem V T}

/-- What a supported family says of undeclared variables supports nothing. -/
lemma MutuallySupported.declared {F : V → T → Prop} (hF : P.MutuallySupported F) :
    P.MutuallySupported fun v x => v ∈ P.vars ∧ F v x := by
  rintro v w hw x ⟨-, hx⟩
  obtain ⟨y, hy, hc⟩ := hF v w hw x hx
  exact ⟨y, ⟨P.neighbors_declared v w hw, hy⟩, hc⟩

/-- The values of a consistent assignment to all variables support each other. -/
lemma Consistent.mutuallySupported {τ : Assignment V T} (h : P.Consistent τ)
    (hall : ∀ v ∈ P.vars, ∃ x, τ.get? v = some x) :
    P.MutuallySupported fun v x => τ.get? v = some x := by
  intro v w hw x hx
  obtain ⟨y, hy⟩ := hall w (P.neighbors_declared v w hw)
  exact ⟨y, hy, h v w hw x y hx hy, h w v (P.neighbors_symm v w hw) y x hy hx⟩

end Problem

namespace Pass

variable {P : Problem V T} {order : ArcOrder V T}

/-! ## What is kept -/

section Kept

variable {F : V → T → Prop}

/-- Revising keeps a supported family: its values find their partners within the domains. -/
lemma holds_revise (hF : P.MutuallySupported F) {a b : V} (h : b ∈ P.neighbors a) {p : Pass V T}
    (hp : p.domains.Holds F) : (p.revise P order a b).domains.Holds F := by
  intro v x hx
  rw [listAt_revise]
  split
  · rename_i hv
    subst hv
    obtain ⟨y, hy, hc, -⟩ := hF a b h x hx
    refine List.mem_filter.mpr ⟨hp a x hx, ?_⟩
    exact List.any_eq_true.mpr ⟨y, hp b y hy, hc⟩
  · exact hp v x hx

lemma empty_of_filter_eq_nil (hF : P.MutuallySupported F) {a b : V} (h : b ∈ P.neighbors a)
    {p : Pass V T} (hp : p.domains.Holds F)
    (hnil : (p.domains.listAt a).filter (p.hasSupport P a b) = []) (x : T) : ¬ F a x := by
  intro hx
  obtain ⟨y, hy, hc, -⟩ := hF a b h x hx
  have hkept : x ∈ (p.domains.listAt a).filter (p.hasSupport P a b) :=
    List.mem_filter.mpr ⟨hp a x hx, List.any_eq_true.mpr ⟨y, hp b y hy, hc⟩⟩
  rw [hnil] at hkept
  exact List.not_mem_nil hkept

variable [DecidableEq T]

/-- Settling the reverse arc removes only values of `b` that go with no supported value of `a`; a
value of the family goes with one. -/
lemma holds_settleReverse (hF : P.MutuallySupported F) {a b : V} (h : b ∈ P.neighbors a)
    {p : Pass V T} {known : Partition T T}
    (hsub : known.unproven.Sublist (p.domains.listAt b))
    (hsupported : known.supported.toList = p.domains.listAt a)
    (hp : p.domains.Holds F) :
    (p.settleReverse P order a b known).domains.Holds F := by
  rw [settleReverse]
  split
  · let found := sift (fun y x => P.check b y a x) (fun _ => known.supported.toList) known.unproven
    have hgone := removed_sift (fun y x => P.check b y a x) known.supported.toList known.unproven
    have hperm := without_perm known ((removed_sift_sublist (fun y x => P.check b y a x)
      (fun _ => known.supported.toList) known.unproven).trans hsub)
    intro v x hx
    dsimp only
    rw [listAt_shrink _ _ (by exact without_sublist known _ _)]
    split
    · rename_i hv
      subst hv
      have hmem : x ∈ p.domains.listAt b := hp b x hx
      rcases List.mem_append.mp (hperm.mem_iff.mpr hmem) with hleft | hgo
      · exact hleft
      · -- a value that goes would go with its partner in the family
        obtain ⟨y, hy, hc, -⟩ := hF b a (P.neighbors_symm a b h) x hx
        rw [hgone, hsupported] at hgo
        have hnone := (List.mem_filter.mp hgo).2
        simp only [Bool.not_eq_true', List.any_eq_false] at hnone
        exact absurd hc (hnone y (hp a y hy))
    · exact hp v x hx
  · exact hp

/-- **A visit between neighbors keeps a supported family.**  It ends with a contradiction only if
the family has no value for the first variable of the arc, and with nothing else. -/
theorem holds_visit (how : Propagator V T) (hF : P.MutuallySupported F) {arc : Arc V}
    (h : arc.2 ∈ P.neighbors arc.1) {p : Pass V T} (hp : p.domains.Holds F) :
    (p.visit P how arc).pass.domains.Holds F ∧
      ∀ answer q, p.visit P how arc = .ends answer q →
        answer = .ok .inconsistent ∧ ∀ x, ¬ F arc.1 x := by
  obtain ⟨a, b⟩ := arc
  rw [visit]
  cases how.method with
  | ac3 =>
    rcases visitAc3_of_neighbor P how.order h p with
      ⟨n, ⟨-, hgo⟩ | ⟨q, hend, -, hq, -, hnil, hframe⟩⟩
    · simp only [hgo, Visit.pass]
      exact ⟨holds_revise hF h hp, by simp⟩
    · have hempty := empty_of_filter_eq_nil hF h hp hnil
      simp only [hend, Visit.pass]
      refine ⟨fun v x hx => ?_, ?_⟩
      · by_cases hav : a = v
        · exact absurd (hav ▸ hx) (hempty x)
        · rw [hframe v hav]
          exact hp v x hx
      · rintro answer r heq
        cases heq
        exact ⟨rfl, hempty⟩
  | ac3b =>
    rcases visitAc3b_of_neighbor P how.order h p with ⟨n, known, hknown, ⟨-, hgo⟩ | ⟨hnil, hend⟩⟩
    · have hab := P.ne_of_mem_neighbors h
      have hb : ((p.countChecks n).revise P how.order a b).domains.listAt b
          = p.domains.listAt b := by
        rw [listAt_revise, if_neg hab]
        rfl
      simp only [hgo, Visit.pass]
      refine ⟨holds_settleReverse hF h ?_ ?_ (holds_revise hF h hp), by simp⟩
      · rw [hb]
        exact hknown.sublist
      · rw [listAt_revise, if_pos rfl]
        exact hknown.supported
    · simp only [hend, Visit.pass]
      refine ⟨hp, ?_⟩
      rintro answer r heq
      cases heq
      exact ⟨rfl, empty_of_filter_eq_nil hF h hp hnil⟩

end Kept

/-! ## Passes -/

section Passes

variable [DecidableEq T] (how : Propagator V T) {p : Pass V T}

/-- **A pass over arcs between neighbors keeps a supported family**, and answers; a contradiction
means that the family has no value for a variable with a neighbor. -/
theorem holds_run {F : V → T → Prop} (hF : P.MutuallySupported F) (hq : p.QueueOnNeighbors P)
    (hp : p.domains.Holds F) :
    (p.run P how).2.domains.Holds F ∧ (∃ verdict, (p.run P how).1 = .ok verdict) ∧
      ((p.run P how).1 = .ok .inconsistent → ∃ v, P.neighbors v ≠ [] ∧ ∀ x, ¬ F v x) := by
  refine run_induction (I := fun p => p.QueueOnNeighbors P ∧ p.domains.Holds F)
    (R := fun answer q => q.domains.Holds F ∧ (∃ verdict, answer = .ok verdict) ∧
      (answer = .ok .inconsistent → ∃ v, P.neighbors v ≠ [] ∧ ∀ x, ¬ F v x)) ?_ ?_ ⟨hq, hp⟩
  · rintro p q ⟨hq, hp⟩ hstep
    obtain ⟨arc, rest, clock, hmem, hrest, -, hvisit⟩ := visit_of_goesOn hstep
    have hheld := (holds_visit how hF (hq arc hmem) (p := p.taken rest clock) hp).1
    rw [hvisit] at hheld
    exact ⟨queueOnNeighbors_step hq hstep, hheld⟩
  · rintro p answer q ⟨hq, hp⟩ hstep
    rcases cases_of_ends hstep with
      ⟨rfl, -, hD, -⟩ | ⟨arc, rest, clock, hmem, hrest, ⟨-, rfl, rfl⟩ | ⟨-, hvisit⟩⟩
    · rw [hD]
      exact ⟨hp, ⟨_, rfl⟩, by simp⟩
    · exact ⟨hp, ⟨_, rfl⟩, by simp⟩
    · obtain ⟨hheld, hends⟩ := holds_visit how hF (hq arc hmem) (p := p.taken rest clock) hp
      obtain ⟨rfl, hempty⟩ := hends answer q hvisit
      rw [hvisit] at hheld
      exact ⟨hheld, ⟨_, rfl⟩, fun _ => ⟨arc.1, List.ne_nil_of_mem (hq arc hmem), hempty⟩⟩

/-- Without a limit a pass over arcs between neighbors is not interrupted. -/
theorem run_never (hq : p.QueueOnNeighbors P) (hl : p.limit = .never) :
    (p.run P how).1 ≠ .ok .interrupted ∧ (p.run P how).2.limit = .never := by
  -- the family without values is supported, so a visit ends with nothing but a contradiction
  have hF : P.MutuallySupported fun _ (_ : T) => False := fun _ _ _ _ h => h.elim
  have hempty : ∀ p : Pass V T, p.domains.Holds fun _ _ => False := fun _ _ _ h => h.elim
  refine run_induction (I := fun p => p.QueueOnNeighbors P ∧ p.limit = .never)
    (R := fun answer q => answer ≠ .ok .interrupted ∧ q.limit = .never) ?_ ?_ ⟨hq, hl⟩
  · rintro p q ⟨hq, hl⟩ hstep
    obtain ⟨arc, rest, clock, hmem, hrest, -, hvisit⟩ := visit_of_goesOn hstep
    have hlimit := limit_visit P how arc (p.taken rest clock)
    rw [hvisit] at hlimit
    refine ⟨queueOnNeighbors_step hq hstep, ?_⟩
    rw [show q.limit = p.limit.poll.2 from hlimit, hl, Limit.poll]
  · rintro p answer q ⟨hq, hl⟩ hstep
    rcases cases_of_ends hstep with
      ⟨rfl, -, -, hlimit⟩ | ⟨arc, rest, clock, hmem, hrest, ⟨hpoll, -⟩ | ⟨-, hvisit⟩⟩
    · exact ⟨by simp, hlimit.trans hl⟩
    · rw [hl] at hpoll
      cases hpoll
    · have hlimit := limit_visit P how arc (p.taken rest clock)
      obtain ⟨rfl, -⟩ :=
        (holds_visit how hF (hq arc hmem) (hempty (p.taken rest clock))).2 _ _ hvisit
      rw [hvisit] at hlimit
      refine ⟨by simp, ?_⟩
      rw [show q.limit = p.limit.poll.2 from hlimit, hl, Limit.poll]

end Passes

end Pass

/-! ## The propagator -/

namespace Propagator

/-- Given arcs between neighbors, or all arcs if none are given, are arcs between neighbors. -/
lemma onNeighbors_getD {P : Problem V T} {arcs : Option (List (Arc V))}
    (harcs : ∀ as ∈ arcs, P.OnNeighbors as) : P.OnNeighbors (arcs.getD P.arcs) := by
  cases arcs with
  | none => exact P.onNeighbors_arcs
  | some as => exact harcs as rfl

variable [DecidableEq T] (how : Propagator V T) (P : Problem V T) (s : State V T)
  {arcs : Option (List (Arc V))} (harcs : P.OnNeighbors (arcs.getD P.arcs))
  (trail : Option (Trail V T)) (limit : Limit)

omit [DecidableEq T] in
include harcs in
lemma queueOnNeighbors_start :
    (Pass.start how (s.domains P) (arcs.getD P.arcs) limit).QueueOnNeighbors P := by
  intro e he
  exact harcs e ((Pass.mem_start how _ _ _ e).mp he)

include harcs in
/-- **Propagation over arcs between neighbors keeps a supported family**, whatever its verdict and
its limit; a contradiction means that the family has no value for some variable. -/
theorem keeps_supported {F : V → T → Prop} (hF : P.MutuallySupported F)
    (hin : (s.domains P).Holds F) :
    ((how.propagate P s arcs trail limit).state.domains P).Holds F ∧
      (∃ verdict, (how.propagate P s arcs trail limit).answer = .ok verdict) ∧
      ((how.propagate P s arcs trail limit).answer = .ok .inconsistent →
        ∃ v, P.neighbors v ≠ [] ∧ ∀ x, ¬ F v x) := by
  have hD := (Pass.start_frame how (s.domains P) (arcs.getD P.arcs) limit).1
  refine Pass.holds_run how hF (queueOnNeighbors_start how P s harcs limit) ?_
  rw [hD]
  exact hin

include harcs in
/-- Without a limit propagation is not interrupted, and the limit stays as it is. -/
theorem never_interrupted :
    (how.propagate P s arcs trail .never).answer ≠ .ok .interrupted ∧
      (how.propagate P s arcs trail .never).limit = .never := by
  have hl := (Pass.start_frame how (s.domains P) (arcs.getD P.arcs) .never).2.2.2
  exact Pass.run_never how (queueOnNeighbors_start how P s harcs .never) hl

/-- **Propagation preserves the solutions.**  Whatever the predicate, the method, the order of the
queue, and the limit, a pass over arcs between neighbors answers; a consistent assignment selects
its values from the domains after the pass exactly if it did before, also if the pass was cut short;
and on a contradiction there was no such assignment. -/
theorem propagate_preserves_solutions (how : Propagator V T) (P : Problem V T) (s : State V T)
    (arcs : Option (List (Arc V))) (trail : Option (Trail V T)) (limit : Limit)
    (harcs : ∀ as ∈ arcs, P.OnNeighbors as) :
    let out := how.propagate P s arcs trail limit
    (∃ verdict, out.answer = .ok verdict) ∧
      (∀ τ : Assignment V T, P.Consistent τ →
        (P.Selects (s.choices P) τ ↔ P.Selects (out.state.choices P) τ)) ∧
      (out.answer = .ok .inconsistent →
        ¬ ∃ τ : Assignment V T, P.Consistent τ ∧ P.Selects (s.choices P) τ) := by
  intro out
  have harcs' : P.OnNeighbors (arcs.getD P.arcs) := onNeighbors_getD harcs
  obtain ⟨d, -, -, hremoved⟩ := how.propagate_conserves P s arcs trail limit
  -- what is asked of a family holds of the declared part of an assignment
  have hfamily : ∀ τ : Assignment V T, P.Consistent τ → P.Selects (s.choices P) τ →
      P.MutuallySupported (fun v x => v ∈ P.vars ∧ τ.get? v = some x) ∧
        (s.domains P).Holds fun v x => v ∈ P.vars ∧ τ.get? v = some x := by
    intro τ hτ hsel
    have hall : ∀ v ∈ P.vars, ∃ x, τ.get? v = some x := fun v hv => by
      obtain ⟨x, -, hx⟩ := hsel v hv
      exact ⟨x, hx⟩
    refine ⟨(hτ.mutuallySupported hall).declared, ?_⟩
    rintro v x ⟨hv, hx⟩
    obtain ⟨y, hy, hy'⟩ := hsel v hv
    rwa [Option.some.inj (hx.symm.trans hy')]
  refine ⟨?_, fun τ hτ => ⟨fun hsel v hv => ?_, fun hsel v hv => ?_⟩, ?_⟩
  · have hnone : P.MutuallySupported fun _ (_ : T) => False := fun _ _ _ _ h => h.elim
    exact (keeps_supported how P s harcs' trail limit hnone fun _ _ h => h.elim).2.1
  · obtain ⟨hF, hin⟩ := hfamily τ hτ hsel
    obtain ⟨x, -, hx⟩ := hsel v hv
    exact ⟨x, (keeps_supported how P s harcs' trail limit hF hin).1 v x ⟨hv, hx⟩, hx⟩
  · obtain ⟨x, hmem, hx⟩ := hsel v hv
    exact ⟨x, (hremoved v).2.subset hmem, hx⟩
  · rintro hbad ⟨τ, hτ, hsel⟩
    obtain ⟨hF, hin⟩ := hfamily τ hτ hsel
    obtain ⟨v, hv, hempty⟩ := (keeps_supported how P s harcs' trail limit hF hin).2.2 hbad
    obtain ⟨w, hw⟩ := List.exists_mem_of_ne_nil _ hv
    have hdecl := (P.mem_vars_of_mem_neighbors hw).1
    obtain ⟨x, -, hx⟩ := hsel v hdecl
    exact hempty x ⟨hdecl, hx⟩

/-- A number below another, asked from one side only.  The pass is cut short when it has ruled out
one number, and the solution is still there. -/
theorem propagate_preserves_solutions_one_sided :
    let P := Problem.pair [1, 2, 3] [2, 3] (.ofPredicate fun v x _ y => v || decide (x < y))
    let queue := [(false, true), (true, false)]
    let τ : Assignment Bool Nat := PartialMap.ofList [(false, 1), (true, 2)]
    let out := Propagator.propagate ⟨.ac3, .insertion⟩ P .initial (some queue) (some [])
      (.decisions 1 0)
    P.OnNeighbors queue ∧ P.Consistent τ ∧ P.Selects P.domain τ ∧
      out.answer = .ok .interrupted ∧ out.trail = some [(false, 3)] ∧
      P.Selects (out.state.choices P) τ := by
  intro P queue τ out
  have harcs : ∀ e ∈ queue, e.2 ∈ P.neighbors e.1 := by decide
  have hτ : P.Consistent τ := by
    intro v w hw x y hx hy
    cases v <;> cases w <;> cases hx <;> cases hy
    · exact absurd hw (P.neighbors_irrefl false)
    · rfl
    · rfl
    · exact absurd hw (P.neighbors_irrefl true)
  have hsel : P.Selects P.domain τ := by
    intro v _
    cases v
    · exact ⟨1, by decide, rfl⟩
    · exact ⟨2, by decide, rfl⟩
  have hcut : out.answer = .ok .interrupted :=
    Pass.read_run P _ _ Prod.fst 3 (by decide +kernel)
  have hremoved : out.trail = some [(false, 3)] :=
    congrArg some (Pass.read_run P _ _ (fun r => r.2.removed) 3 (by decide +kernel))
  have hkept := (propagate_preserves_solutions ⟨.ac3, .insertion⟩ P .initial (some queue) (some [])
    (.decisions 1 0) fun as has => Option.some.inj has ▸ harcs).2.1 τ hτ
  exact ⟨harcs, hτ, hsel, hcut, hremoved, hkept.mp hsel⟩

end Propagator

end BinaryCsp
