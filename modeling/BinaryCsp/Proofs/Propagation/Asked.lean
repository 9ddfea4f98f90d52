import BinaryCsp.Proofs.Propagation.Ending

/-!
# Which pairs a pass asks about

The constraint is meant for neighbors, and `Problem.check?` refuses to ask it of others.  A pass
does not go that way: it asks `Problem.check` about every arc that it takes off its queue, and the
arcs it starts with are the caller's.

* **What is asked.**  A visit queues nothing but arcs between neighbors, so the arcs that come up
  are those and the given ones (`Problem.Asked`).  Two constraints that agree on them make the same
  pass, down to the counters (`Pass.run_congr`).
* **What is not refused.**  Between declared variables a visit reports no fault, so a given arc
  between others than neighbors is revised like any other (`Pass.exists_verdict_of_run`).
* **What comes of it.**  Let every variable be down to one and the same value.  An arc that accepts
  it leaves everything as it is, and one that does not ends the pass with a contradiction
  (`Pass.visit_of_accepted`, `Pass.visit_of_rejected`), whether or not its variables are neighbors.

So propagation depends on the constraint between neighbors alone exactly if all given arcs are
between neighbors (`Propagator.asks_given_arcs`).  Given the one arc between two variables that
share no constraint, both methods come to a contradiction over it
(`Propagator.strangers_come_to_contradiction`).
-/

namespace BinaryCsp

open Support

variable {V T : Type} [DecidableEq V]

/-! ## One value tested against itself -/

namespace Support

variable {x : T}

lemma sift_singleton (check : T → T → Bool) {targets : Array T → List T} (h : targets #[] = [x]) :
    sift check targets [x] = if check x x then ⟨#[x], #[], 1⟩ else ⟨#[], #[x], 1⟩ := by
  cases hcheck : check x x <;> simp [sift, Sifted.step, Sifted.start, probe, h, hcheck]

lemma partition_singleton (check : T → T → Bool) :
    Partition.of check [x] [x]
      = if check x x then ⟨#[x], #[], [], [x], 1⟩ else ⟨#[], #[x], [x], [], 1⟩ := by
  cases hcheck : check x x <;>
    simp [Partition.of, Partition.step, Partition.start, probe, hcheck]

end Support

/-! ## Constraints that agree on some arcs -/

/-- Two constraints answer alike on some arcs. -/
def Constraint.AgreesOn (c d : Constraint V T) (A : Arc V → Prop) : Prop :=
  ∀ e, A e → ∀ x y, c.check e.1 x e.2 y = d.check e.1 x e.2 y

namespace Problem

variable (P : Problem V T)

/-- The same variables, domains and neighbors under another constraint. -/
def withConstraint (c : Constraint V T) : Problem V T := { P with constraint := c }

lemma vars_withConstraint (c : Constraint V T) : (P.withConstraint c).vars = P.vars := rfl

/-- The arcs between neighbors. -/
def Joins (e : Arc V) : Prop := e.2 ∈ P.neighbors e.1

/-- The arcs between neighbors, and some given ones. -/
def Asked (arcs : List (Arc V)) (e : Arc V) : Prop := P.Joins e ∨ e ∈ arcs

/-- Both ends of an arc are declared. -/
def Declares (e : Arc V) : Prop := e.1 ∈ P.vars ∧ e.2 ∈ P.vars

variable {P}

lemma Joins.declares {e : Arc V} (h : P.Joins e) : P.Declares e := P.mem_vars_of_mem_neighbors h

end Problem

namespace Pass

open Problem

variable {P : Problem V T} {order : ArcOrder V T}

/-! ## What is queued -/

/-- All queued arcs are among some arcs. -/
def QueueWithin (A : Arc V → Prop) (p : Pass V T) : Prop := ∀ e, e ∈ p.queue → A e

lemma joins_or_mem_of_requeue {v except : V} {p : Pass V T} {e : Arc V}
    (he : e ∈ (p.requeue P order v except).queue) : P.Joins e ∨ e ∈ p.queue := by
  rcases (mem_requeue P order).mp he with ⟨rfl, hmem, -⟩ | hmem
  · exact Or.inl (P.neighbors_symm _ _ hmem)
  · exact Or.inr hmem

lemma joins_or_mem_of_shrink {v except : V} {left gone : List T} {p : Pass V T} {e : Arc V}
    (he : e ∈ (p.shrink P order v except left gone).queue) : P.Joins e ∨ e ∈ p.queue := by
  rw [shrink] at he
  split at he
  · have hrequeued := joins_or_mem_of_requeue he
    exact hrequeued
  · exact Or.inr he

lemma queueWithin_start (how : Propagator V T) {A : Arc V → Prop} {arcs : List (Arc V)}
    (harcs : ∀ e ∈ arcs, A e) (D : Domains V T) (limit : Limit) :
    (start how D arcs limit).QueueWithin A :=
  fun e he => harcs e ((mem_start how D arcs limit e).mp he)

variable [DecidableEq T] {how : Propagator V T} {p q : Pass V T}

lemma joins_or_mem_of_settleReverse {a b : V} {known : Partition T T} {e : Arc V}
    (he : e ∈ (p.settleReverse P order a b known).queue) : P.Joins e ∨ e ∈ p.queue := by
  rw [settleReverse] at he
  split at he
  · exact (joins_or_mem_of_shrink he).imp_right fun hmem => (ArcQueue.mem_remove.mp hmem).2
  · exact Or.inr he

/-- **A visit queues nothing but arcs between neighbors**, whatever arc it visits. -/
theorem joins_or_mem_of_visit {arc e : Arc V} (h : p.visit P how arc = .goesOn q)
    (he : e ∈ q.queue) : P.Joins e ∨ e ∈ p.queue := by
  rw [visit] at h
  cases hm : how.method with
  | ac3 =>
    rw [hm] at h
    simp only [visitAc3] at h
    split at h
    · split at h
      · split at h
        · split at h
          · cases h
          · cases h
            have hrequeued := joins_or_mem_of_requeue he
            exact hrequeued
        · cases h
          exact Or.inr he
      · cases h
    · cases h
  | ac3b =>
    rw [hm] at h
    simp only [visitAc3b] at h
    split at h
    · split at h
      · split at h
        · cases h
        · cases h
          exact (joins_or_mem_of_settleReverse he).elim Or.inl joins_or_mem_of_shrink
      · cases h
    · cases h

/-- A step goes on with arcs between neighbors and such as were queued. -/
lemma QueueWithin.step {A : Arc V → Prop} (hA : ∀ e, P.Joins e → A e) (hq : p.QueueWithin A)
    (hstep : p.step P how = .goesOn q) : q.QueueWithin A := by
  obtain ⟨arc, rest, clock, -, hrest, -, hvisit⟩ := visit_of_goesOn hstep
  intro e he
  rcases joins_or_mem_of_visit hvisit he with hjoins | hmem
  · exact hA e hjoins
  · exact hq e ((hrest e).mp hmem).2

/-! ## What is asked -/

section Asked

variable {c : Constraint V T}

omit [DecidableEq T] in
lemma shrink_withConstraint (v except : V) (left gone : List T) :
    p.shrink (P.withConstraint c) order v except left gone = p.shrink P order v except left gone :=
  rfl

/-- Settling the reverse arc asks about that arc, if it is queued. -/
lemma settleReverse_congr {a b : V} {known : Partition T T}
    (h : (b, a) ∈ p.queue → ∀ y x, c.check b y a x = P.check b y a x) :
    p.settleReverse (P.withConstraint c) order a b known = p.settleReverse P order a b known := by
  rw [settleReverse, settleReverse]
  split
  · rename_i hmem
    have hcheck : (fun y x => (P.withConstraint c).check b y a x) = fun y x => P.check b y a x := by
      funext y x
      exact h hmem y x
    rw [hcheck]
    rfl
  · rfl

/-- **A visit asks about its arc and, if that is queued, the reverse one.** -/
theorem visit_congr {A : Arc V → Prop} (hc : c.AgreesOn P.constraint A)
    (hA : ∀ e, P.Joins e → A e) {arc : Arc V} (harc : A arc) (hq : p.QueueWithin A) :
    p.visit (P.withConstraint c) how arc = p.visit P how arc := by
  obtain ⟨a, b⟩ := arc
  have hcheck : (fun x y => (P.withConstraint c).check a x b y) = fun x y => P.check a x b y := by
    funext x y
    exact hc (a, b) harc x y
  rw [visit, visit]
  cases how.method with
  | ac3 =>
    simp only [visitAc3, hcheck]
    rfl
  | ac3b =>
    -- the reverse arc was queued before the domain of `a` was cut, or joins neighbors
    have hsettle : ∀ (n : Nat) (left gone : List T) (known : Partition T T),
        ((p.countChecks n).shrink P how.order a b left gone).settleReverse (P.withConstraint c)
            how.order a b known
          = ((p.countChecks n).shrink P how.order a b left gone).settleReverse P how.order a b
            known := by
      intro n left gone known
      refine settleReverse_congr fun hmem y x => hc (b, a) ?_ y x
      have hqueued := joins_or_mem_of_shrink hmem
      exact hqueued.elim (hA _) (hq _)
    simp only [visitAc3b, hcheck, vars_withConstraint, shrink_withConstraint, hsettle]

/-- Two constraints that agree on all arcs between neighbors and all queued ones take the same
step. -/
lemma step_congr {A : Arc V → Prop} (hc : c.AgreesOn P.constraint A) (hA : ∀ e, P.Joins e → A e)
    (hq : p.QueueWithin A) : p.step (P.withConstraint c) how = p.step P how := by
  rw [step_eq_takeUp, step_eq_takeUp]
  rcases hpop : p.queue.pop (ask how p.domains) p.clock with ⟨_ | ⟨arc, rest⟩, clock⟩
  · rfl
  · obtain ⟨hmem, hrest⟩ := ArcQueue.mem_of_pop hpop
    have hwithin : (p.taken rest clock).QueueWithin A := fun e he => hq e ((hrest e).mp he).2
    simp only [takeUp, visit_congr hc hA (hq arc hmem) hwithin]

/-- **Constraints that agree on what is asked make the same pass**, with the same answer and the
same counters. -/
theorem run_congr (how : Propagator V T) {A : Arc V → Prop} (hc : c.AgreesOn P.constraint A)
    (hA : ∀ e, P.Joins e → A e) (hq : p.QueueWithin A) :
    p.run (P.withConstraint c) how = p.run P how := by
  fun_induction run P how p with
  | case1 p answer q hstep =>
    rw [run_eq_step, step_congr hc hA hq, hstep]
    rfl
  | case2 p q hstep ih =>
    rw [run_eq_step, step_congr hc hA hq, hstep]
    exact ih (hq.step hA hstep)

end Asked

/-! ## What is not refused -/

/-- Between declared variables a visit that ends has come to a contradiction. -/
lemma eq_inconsistent_of_visit {arc : Arc V} (harc : P.Declares arc)
    {answer : Except (Fault V T) Verdict} (h : p.visit P how arc = .ends answer q) :
    answer = .ok .inconsistent := by
  obtain ⟨ha, hb⟩ := harc
  rw [visit] at h
  cases hm : how.method with
  | ac3 =>
    rw [hm] at h
    simp only [visitAc3, if_pos ha, if_pos (Or.inl hb)] at h
    split at h
    · split at h
      · cases h
        rfl
      · cases h
    · cases h
  | ac3b =>
    rw [hm] at h
    simp only [visitAc3b, if_pos ha, if_pos hb] at h
    split at h
    · cases h
      rfl
    · cases h

/-- **Between declared variables a pass reports no fault.** -/
theorem exists_verdict_of_run (hq : p.QueueWithin P.Declares) :
    ∃ verdict, (p.run P how).1 = .ok verdict := by
  refine run_induction (I := QueueWithin P.Declares)
    (R := fun answer _ => ∃ verdict, answer = .ok verdict)
    (fun p q hq hstep => hq.step (fun _ => Joins.declares) hstep) (fun p answer q hq hstep => ?_) hq
  rcases cases_of_ends hstep with ⟨rfl, -⟩ | ⟨arc, rest, clock, hmem, -, ⟨-, rfl, -⟩ | ⟨-, hvisit⟩⟩
  · exact ⟨_, rfl⟩
  · exact ⟨_, rfl⟩
  · exact ⟨_, eq_inconsistent_of_visit (hq arc hmem) hvisit⟩

/-! ## Domains down to one and the same value -/

section Alike

variable {x : T}

variable (P x) in
/-- Every declared variable is down to the value `x`. -/
def AllAre (p : Pass V T) : Prop := ∀ v ∈ P.vars, p.domains.listAt v = [x]

omit [DecidableEq T] in
lemma allAre_start (how : Propagator V T) {D : Domains V T} (hD : ∀ v ∈ P.vars, D.listAt v = [x])
    (arcs : List (Arc V)) (limit : Limit) : (start how D arcs limit).AllAre P x := by
  intro v hv
  rw [(start_frame how D arcs limit).1]
  exact hD v hv

lemma supporters_singleton (a b : V) : supporters a b [x] #[] = [x] := by
  simp [supporters, eraseAll]

/-- Where all values of `b` have given support, settling the reverse arc only takes it off the
queue. -/
lemma settleReverse_of_unproven_nil (P : Problem V T) (order : ArcOrder V T) (a b : V)
    (p : Pass V T) {known : Partition T T} (h : known.unproven = []) :
    (p.settleReverse P order a b known).domains = p.domains ∧
      ∀ e ∈ p.queue, e ≠ (b, a) → e ∈ (p.settleReverse P order a b known).queue := by
  rw [settleReverse]
  split
  · have hleft : known.without (p.domains.listAt b) [] = p.domains.listAt b := by
      refine (without_sublist known _ _).eq_of_length ?_
      simpa using (without_perm known (List.nil_sublist (p.domains.listAt b))).length_eq
    have hfound : sift (fun y x => P.check b y a x) (fun _ => known.supported.toList)
        known.unproven = ⟨#[], #[], 0⟩ := by
      rw [h]
      rfl
    have hstays : ¬ Pass.shortens ({ p with queue := p.queue.remove (b, a) }.countChecks 0) b
        (p.domains.listAt b) = true := by
      simp [shortens]
    simp only [hfound, hleft, shrink, if_neg hstays]
    exact ⟨rfl, fun e he hne => ArcQueue.mem_remove.mpr ⟨hne, he⟩⟩
  · exact ⟨rfl, fun _ he _ => he⟩

/-- An arc that accepts the value leaves the domains as they are, and the queue but for the reverse
arc. -/
lemma visit_of_accepted (how : Propagator V T) (h : p.AllAre P x) {arc : Arc V}
    (harc : P.Declares arc) (hyes : P.check arc.1 x arc.2 x = true) :
    ∃ q, p.visit P how arc = .goesOn q ∧ q.domains = p.domains ∧
      ∀ e ∈ p.queue, e ≠ arc.swap → e ∈ q.queue := by
  obtain ⟨a, b⟩ := arc
  obtain ⟨ha, hb⟩ := harc
  have hshort : ∀ v ∈ P.vars, ∀ r : Pass V T, r.domains = p.domains → r.shortens v [x] = false := by
    intro v hv r hr
    simp [shortens, hr, h v hv]
  rw [visit]
  cases how.method with
  | ac3 =>
    have hfound := sift_singleton (fun x y => P.check a x b y) (supporters_singleton (x := x) a b)
    rw [if_pos hyes] at hfound
    have hleft : remnant a b [x] ⟨#[x], #[], 1⟩ = [x] := by simp [remnant, eraseAll]
    simp only [visitAc3, if_pos ha, if_pos (Or.inl hb), h a ha, h b hb, hfound, domains_countChecks,
      hleft, hshort a ha _ (domains_countChecks 1 p)]
    exact ⟨p.countChecks 1, rfl, rfl, fun _ he _ => he⟩
  | ac3b =>
    have hknown := partition_singleton (x := x) fun x y => P.check a x b y
    rw [if_pos hyes] at hknown
    have hstays : (p.countChecks 1).shrink P how.order a b [x] [] = p.countChecks 1 := by
      rw [shrink, hshort a ha _ (domains_countChecks 1 p)]
      rfl
    let known : Partition T T := ⟨#[x], #[], [], [x], 1⟩
    have hunproven : known.unproven = [] := rfl
    have hsettled := settleReverse_of_unproven_nil P how.order a b (p.countChecks 1) hunproven
    simp only [visitAc3b, if_pos ha, if_pos hb, h a ha, h b hb, hknown, hstays]
    exact ⟨_, rfl, hsettled⟩

/-- **An arc that rejects the value ends the pass with a contradiction**, and `ac3` has emptied a
domain. -/
lemma visit_of_rejected (how : Propagator V T) (h : p.AllAre P x) {arc : Arc V}
    (harc : P.Declares arc) (hno : P.check arc.1 x arc.2 x = false) :
    ∃ q, p.visit P how arc = .ends (.ok .inconsistent) q ∧
      (how.method = .ac3 → q.domains.listAt arc.1 = []) := by
  obtain ⟨a, b⟩ := arc
  obtain ⟨ha, hb⟩ := harc
  rw [visit]
  cases how.method with
  | ac3 =>
    have hfound := sift_singleton (fun x y => P.check a x b y) (supporters_singleton (x := x) a b)
    rw [if_neg (by simpa using hno)] at hfound
    have hleft : remnant a b [x] ⟨#[], #[x], 1⟩ = [] := by simp [remnant, eraseAll]
    simp only [visitAc3, if_pos ha, if_pos (Or.inl hb), h a ha, h b hb, hfound, domains_countChecks,
      hleft]
    have hshort : (p.countChecks 1).shortens a [] = true := by simp [shortens, h a ha]
    have hnil : ((p.countChecks 1).cut a [] [x]).domains.listAt a = [] := by simp [cut]
    rw [if_pos hshort, if_pos hnil]
    exact ⟨_, rfl, fun _ => hnil⟩
  | ac3b =>
    have hknown := partition_singleton (x := x) fun x y => P.check a x b y
    rw [if_neg (by simpa using hno)] at hknown
    simp only [visitAc3b, if_pos ha, if_pos hb, h a ha, h b hb, hknown]
    exact ⟨p.countChecks 1, rfl, fun hm => by cases hm⟩

/-- A visit that goes on was to an arc that accepts the value. -/
lemma of_visit_goesOn (h : p.AllAre P x) {arc : Arc V} (harc : P.Declares arc)
    (hvisit : p.visit P how arc = .goesOn q) :
    P.check arc.1 x arc.2 x = true ∧ q.domains = p.domains ∧
      ∀ e ∈ p.queue, e ≠ arc.swap → e ∈ q.queue := by
  cases hcheck : P.check arc.1 x arc.2 x with
  | false =>
    obtain ⟨r, hend, -⟩ := visit_of_rejected how h harc hcheck
    cases hend.symm.trans hvisit
  | true =>
    obtain ⟨r, hgo, hkept⟩ := visit_of_accepted how h harc hcheck
    obtain rfl := Visit.goesOn.inj (hgo.symm.trans hvisit)
    exact ⟨rfl, hkept⟩

/-- A visit that ends was to an arc that rejects the value. -/
lemma of_visit_ends (h : p.AllAre P x) {arc : Arc V} (harc : P.Declares arc)
    {answer : Except (Fault V T) Verdict} (hvisit : p.visit P how arc = .ends answer q) :
    P.check arc.1 x arc.2 x = false ∧ answer = .ok .inconsistent ∧
      (how.method = .ac3 → q.domains.listAt arc.1 = []) := by
  cases hcheck : P.check arc.1 x arc.2 x with
  | false =>
    obtain ⟨r, hend, hemptied⟩ := visit_of_rejected how h harc hcheck
    cases hend.symm.trans hvisit
    exact ⟨rfl, rfl, hemptied⟩
  | true =>
    obtain ⟨r, hgo, -⟩ := visit_of_accepted how h harc hcheck
    cases hgo.symm.trans hvisit

/-- A step that goes on leaves every variable its value. -/
lemma AllAre.step (hq : p.QueueWithin P.Declares) (h : p.AllAre P x)
    (hstep : p.step P how = .goesOn q) : q.AllAre P x := by
  obtain ⟨arc, rest, clock, hmem, -, -, hvisit⟩ := visit_of_goesOn hstep
  obtain ⟨-, hD, -⟩ := of_visit_goesOn (p := p.taken rest clock) h (hq arc hmem) hvisit
  intro v hv
  rw [hD]
  exact h v hv

/-- If every arc that may come up accepts the value, a pass finds no contradiction. -/
theorem run_of_accepted {A : Arc V → Prop} (hA : ∀ e, P.Joins e → A e)
    (hdecl : ∀ e, A e → P.Declares e) (hyes : ∀ e, A e → P.check e.1 x e.2 x = true)
    (hq : p.QueueWithin A) (h : p.AllAre P x) : (p.run P how).1 ≠ .ok .inconsistent := by
  refine run_induction (I := fun p => p.QueueWithin A ∧ p.AllAre P x)
    (R := fun answer _ => answer ≠ .ok .inconsistent) ?_ ?_ ⟨hq, h⟩
  · rintro p q ⟨hq, h⟩ hstep
    exact ⟨hq.step hA hstep, h.step (fun e he => hdecl e (hq e he)) hstep⟩
  · rintro p answer q ⟨hq, h⟩ hstep rfl
    rcases cases_of_ends hstep with
      ⟨hans, -⟩ | ⟨arc, rest, clock, hmem, -, ⟨-, hans, -⟩ | ⟨-, hvisit⟩⟩
    · cases hans
    · cases hans
    · have harc := hq arc hmem
      obtain ⟨hno, -⟩ := of_visit_ends (p := p.taken rest clock) h (hdecl arc harc) hvisit
      cases hno.symm.trans (hyes arc harc)

/-- What a pass keeps on its way to a contradiction: the arc that is to bring it about stays in the
queue, and all variables keep their value. -/
structure Doomed (P : Problem V T) (x : T) (A : Arc V → Prop) (arc : Arc V) (p : Pass V T) :
    Prop where
  limit : p.limit = .never
  within : p.QueueWithin A
  alike : p.AllAre P x
  queued : arc ∈ p.queue

section Doomed

variable {A : Arc V → Prop} (hA : ∀ e, P.Joins e → A e) (hdecl : ∀ e, A e → P.Declares e)
  {arc : Arc V} (hno : P.check arc.1 x arc.2 x = false) (hno' : P.check arc.2 x arc.1 x = false)

include hA hdecl hno hno' in
/-- An arc that rejects the value in both orders is not taken off the queue for settling the reverse
of another. -/
lemma Doomed.step (h : p.Doomed P x A arc) (hstep : p.step P how = .goesOn q) :
    q.Doomed P x A arc := by
  obtain ⟨e, rest, clock, he, hrest, -, hvisit⟩ := visit_of_goesOn hstep
  have hlimit := limit_visit P how e (p.taken rest clock)
  rw [hvisit] at hlimit
  obtain ⟨hyes, -, hqueue⟩ :=
    of_visit_goesOn (p := p.taken rest clock) h.alike (hdecl e (h.within e he)) hvisit
  have hne : arc ≠ e := by
    rintro rfl
    cases hno.symm.trans hyes
  have hne' : arc ≠ e.swap := by
    rintro rfl
    cases hno'.symm.trans hyes
  refine ⟨?_, h.within.step hA hstep, h.alike.step (fun e he => hdecl e (h.within e he)) hstep,
    hqueue arc ((hrest arc).mpr ⟨hne, h.queued⟩) hne'⟩
  rw [show q.limit = p.limit.poll.2 from hlimit, h.limit, Limit.poll]

include hA hdecl hno hno' in
/-- **An arc that rejects the value in both orders brings a pass to a contradiction**, and with
`ac3` a domain is empty at the end. -/
theorem run_of_rejected (h : p.Doomed P x A arc) :
    (p.run P how).1 = .ok .inconsistent ∧
      (how.method = .ac3 → ∃ e, A e ∧ (p.run P how).2.domains.listAt e.1 = []) := by
  refine run_induction (I := Doomed P x A arc)
    (R := fun answer q => answer = .ok .inconsistent ∧
      (how.method = .ac3 → ∃ e, A e ∧ q.domains.listAt e.1 = []))
    (fun p q h hstep => h.step hA hdecl hno hno' hstep) (fun p answer q h hstep => ?_) h
  rcases cases_of_ends hstep with
    ⟨-, hempty, -⟩ | ⟨e, rest, clock, he, -, ⟨hpoll, -⟩ | ⟨-, hvisit⟩⟩
  · exact absurd h.queued (hempty arc)
  · rw [h.limit] at hpoll
    cases hpoll
  · have hwithin := h.within e he
    obtain ⟨-, hanswer, hemptied⟩ :=
      of_visit_ends (p := p.taken rest clock) h.alike (hdecl e hwithin) hvisit
    exact ⟨hanswer, fun hm => ⟨e, hwithin, hemptied hm⟩⟩

end Doomed

end Alike

end Pass

/-! ## The propagator -/

/-- The neighbors accept everything, and nothing else is accepted. -/
def Problem.onlyNeighbors (P : Problem V T) : Constraint V T :=
  .ofPredicate fun a _ b _ => decide (b ∈ P.neighbors a)

/-- Two variables that are not neighbors. -/
def Problem.strangers (xs ys : List T) (constraint : Constraint Bool T) : Problem Bool T :=
  { pair xs ys constraint with
    graph := ⟨[(false, []), (true, [])], by decide⟩
    neighbors_declared := by
      intro v w hw
      cases v <;> cases hw
    neighbors_nodup := by decide
    neighbors_irrefl := by decide
    neighbors_symm := by decide }

namespace Propagator

variable [DecidableEq T] (how : Propagator V T) (P : Problem V T) {arcs : List (Arc V)}

/-- Constraints that agree on what is asked make the same propagation. -/
theorem propagate_congr {A : Arc V → Prop} {c : Constraint V T} (hc : c.AgreesOn P.constraint A)
    (hA : ∀ e, P.Joins e → A e) (harcs : ∀ e ∈ arcs, A e) (s : State V T)
    (trail : Option (Trail V T)) (limit : Limit) :
    how.propagate (P.withConstraint c) s (some arcs) trail limit
      = how.propagate P s (some arcs) trail limit := by
  have hrun := Pass.run_congr how hc hA
    (Pass.queueWithin_start how harcs (s.domains P) limit)
  have hstart : Pass.start how (s.domains (P.withConstraint c)) arcs limit
      = Pass.start how (s.domains P) arcs limit := rfl
  simp only [propagate, Option.getD_some, hstart, hrun]

variable {P}

/-- **An arc between others than neighbors brings about a contradiction of its own**, where
constraints that accept everything between neighbors differ about it. -/
lemma answer_of_stranger {x : T} {s : State V T} (hs : ∀ v ∈ P.vars, s.choices P v = [x])
    (harcs : ∀ e ∈ arcs, P.Declares e) {arc : Arc V} (hmem : arc ∈ arcs) (hnot : ¬ P.Joins arc)
    (trail : Option (Trail V T)) :
    (how.propagate (P.withConstraint P.onlyNeighbors) s (some arcs) trail .never).answer
        = .ok .inconsistent ∧
      (how.propagate (P.withConstraint (.ofPredicate fun _ _ _ _ => true)) s (some arcs) trail
        .never).answer ≠ .ok .inconsistent := by
  have hjoins : ∀ e, P.Joins e → P.Declares e := fun e => Problem.Joins.declares
  have hstart := Pass.allAre_start how hs arcs .never
  have hwithin := Pass.queueWithin_start how harcs (s.domains P) .never
  constructor
  · have hno : arc.2 ∉ P.neighbors arc.1 := hnot
    have hno' : arc.1 ∉ P.neighbors arc.2 := fun h => hnot (P.neighbors_symm _ _ h)
    exact (Pass.run_of_rejected (P := P.withConstraint P.onlyNeighbors) hjoins (fun _ h => h)
      (decide_eq_false hno) (decide_eq_false hno') ⟨(Pass.start_frame how _ _ _).2.2.2, hwithin,
        hstart, (Pass.mem_start how _ _ _ arc).mpr hmem⟩).1
  · exact Pass.run_of_accepted (P := P.withConstraint (.ofPredicate fun _ _ _ _ => true)) hjoins
      (fun _ h => h) (fun _ _ => rfl) hwithin hstart

/-- **What propagation asks.**  Let the given arcs lead from declared variables to declared
variables, neighbors or not.  Then propagation comes to a verdict and reports no fault; what it
leaves, all counters included, depends on the answers of the constraint for arcs between neighbors
and for the given arcs only; and on those for arcs between neighbors alone exactly if all given arcs
are such. -/
theorem asks_given_arcs [Nonempty T] (how : Propagator V T) (P : Problem V T) (arcs : List (Arc V))
    (harcs : ∀ e ∈ arcs, P.Declares e) :
    (∀ s trail limit, ∃ verdict,
        (how.propagate P s (some arcs) trail limit).answer = .ok verdict) ∧
      (∀ c : Constraint V T, c.AgreesOn P.constraint (P.Asked arcs) → ∀ s trail limit,
        how.propagate (P.withConstraint c) s (some arcs) trail limit
          = how.propagate P s (some arcs) trail limit) ∧
      (P.OnNeighbors arcs ↔
        ∀ c d : Constraint V T, c.AgreesOn d P.Joins → ∀ s trail limit,
          how.propagate (P.withConstraint c) s (some arcs) trail limit
            = how.propagate (P.withConstraint d) s (some arcs) trail limit) := by
  refine ⟨fun s trail limit => ?_, fun c hc s trail limit => ?_,
    fun hon c d hcd s trail limit => ?_, fun hsame arc hmem => ?_⟩
  · exact Pass.exists_verdict_of_run (Pass.queueWithin_start how harcs (s.domains P) limit)
  · exact propagate_congr how P hc (fun e he => Or.inl he) (fun e he => Or.inr he) s trail limit
  · exact propagate_congr how (P.withConstraint d) hcd (fun e he => he) hon s trail limit
  · -- with all variables down to one value, only that arc can decide the answer
    by_contra hnot
    obtain ⟨x⟩ := ‹Nonempty T›
    let D : Domains V T := PartialMap.tabulate P.vars P.vars_nodup fun _ => [x]
    have hD : ∀ v ∈ P.vars, (State.initial.withDomains D).choices P v = [x] := by
      intro v hv
      exact (PartialMap.listAt_tabulate P.vars P.vars_nodup (fun _ => [x]) v).trans (if_pos hv)
    obtain ⟨hbad, hgood⟩ := answer_of_stranger how hD harcs hmem hnot none
    have hagree : P.onlyNeighbors.AgreesOn (.ofPredicate fun _ _ _ _ => true) P.Joins :=
      fun e he _ _ => decide_eq_true he
    rw [hsame _ _ hagree] at hbad
    exact hgood hbad

/-- The arc between two variables that are not neighbors. -/
theorem asks_given_arcs_strangers :
    let P := Problem.strangers [1] [1] .notEqual
    let how : Propagator Bool Nat := ⟨.ac3b, .insertion⟩
    (∀ e ∈ [(false, true)], P.Declares e) ∧
      (∃ verdict, (how.propagate P .initial (some [(false, true)]) none .never).answer
        = .ok verdict) ∧
      ¬ ∀ c d : Constraint Bool Nat, c.AgreesOn d P.Joins → ∀ s trail limit,
          how.propagate (P.withConstraint c) s (some [(false, true)]) trail limit
            = how.propagate (P.withConstraint d) s (some [(false, true)]) trail limit := by
  intro P how
  have harcs : ∀ e ∈ [(false, true)], P.Declares e := by
    intro e he
    rw [List.mem_singleton.mp he]
    exact ⟨by decide, by decide⟩
  have hnot : ¬ P.OnNeighbors [(false, true)] := by
    intro hon
    exact absurd (hon (false, true) (List.mem_singleton_self _)) (by decide)
  obtain ⟨hverdict, -, hiff⟩ := asks_given_arcs how P [(false, true)] harcs
  exact ⟨harcs, hverdict .initial none .never, fun hsame => hnot (hiff.mpr hsame)⟩

/-- Two variables that share no constraint, both down to the number 1, which must differ by a
constraint that is not theirs.  Asked openly about the two the problem reports a mistake; given the
arc between them `ac3` removes the number 1 of the first, and both methods come to a
contradiction. -/
theorem strangers_come_to_contradiction :
    let P := Problem.strangers [1] [1] .notEqual
    let plain := Propagator.propagate ⟨.ac3, .largestTarget⟩ P .initial (some [(false, true)])
      none .never
    let double := Propagator.propagate ⟨.ac3b, .largestTarget⟩ P .initial (some [(false, true)])
      none .never
    (∀ v, P.neighbors v = []) ∧ P.check? false 1 true 1 = .error (.notNeighbors false true) ∧
      plain.answer = .ok .inconsistent ∧ plain.state.choices P false = [] ∧
      double.answer = .ok .inconsistent := by
  intro P plain double
  have hnone : ∀ v, P.neighbors v = [] := by decide
  have hjoins : ∀ e : Arc Bool, P.Joins e → e = (false, true) := by
    intro e he
    rw [Problem.Joins, hnone] at he
    exact absurd he List.not_mem_nil
  have hdecl : ∀ e : Arc Bool, e = (false, true) → P.Declares e := by
    rintro e rfl
    exact ⟨by decide, by decide⟩
  have hno : P.check false 1 true 1 = false ∧ P.check true 1 false 1 = false := by decide
  have hD : ∀ v ∈ P.vars, (State.initial.domains P).listAt v = [1] := by decide
  have hbad : ∀ how : Propagator Bool Nat,
      (how.propagate P .initial (some [(false, true)]) none .never).answer = .ok .inconsistent ∧
        (how.method = .ac3 → ∃ e : Arc Bool, e = (false, true) ∧
          (how.propagate P .initial (some [(false, true)]) none .never).state.choices P e.1 = []) :=
    fun how => Pass.run_of_rejected hjoins hdecl hno.1 hno.2
      ⟨(Pass.start_frame how _ _ _).2.2.2,
        Pass.queueWithin_start how (fun e he => List.mem_singleton.mp he) _ _,
        Pass.allAre_start how hD _ _,
        (Pass.mem_start how _ _ _ _).mpr (List.mem_singleton_self _)⟩
  obtain ⟨e, rfl, hnil⟩ := (hbad ⟨.ac3, .largestTarget⟩).2 rfl
  exact ⟨hnone, rfl, (hbad _).1, hnil, (hbad _).1⟩

end Propagator

end BinaryCsp
