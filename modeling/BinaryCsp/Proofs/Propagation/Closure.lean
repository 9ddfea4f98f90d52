import BinaryCsp.Proofs.Propagation.Soundness

/-!
# What a visit does to the arcs off the queue

Under a predicate that answers alike in both orders, a visit between neighbors is one revision or
two (`Pass.visit_eq_revise`).  The second one takes the reverse arc out of the queue: `ac3b` tests
less than a revision does, but the values it does not test have support.

The invariant of a pass is about the arcs *off the queue*.  A revision may spoil the arcs that lead
to the domain it shortens, and it queues all of them but the reverse arc.  That one is safe: by
symmetry the values that went had supported nothing (`Pass.consistentAt_revise`).
-/

namespace BinaryCsp

open Support

variable {V T : Type} [DecidableEq V]

/-- Each value of `a` goes with a value of `b`. -/
def Problem.ConsistentAt (P : Problem V T) (D : Domains V T) (arc : Arc V) : Prop :=
  ∀ x ∈ D.listAt arc.1, ∃ y ∈ D.listAt arc.2, P.check arc.1 x arc.2 y = true

instance (P : Problem V T) (D : Domains V T) (arc : Arc V) : Decidable (P.ConsistentAt D arc) :=
  inferInstanceAs (Decidable (∀ x ∈ D.listAt arc.1, ∃ y ∈ D.listAt arc.2,
    P.check arc.1 x arc.2 y = true))

namespace Pass

variable {P : Problem V T} {order : ArcOrder V T}

/-! ## Arcs off the queue -/

/-- What holds of all arcs between neighbors that are not queued. -/
def OffQueue (P : Problem V T) (good : Domains V T → Arc V → Prop) (p : Pass V T) : Prop :=
  ∀ e : Arc V, e.2 ∈ P.neighbors e.1 → e ∉ p.queue → good p.domains e

/-- The same, but for one arc. -/
def OffQueueBut (P : Problem V T) (good : Domains V T → Arc V → Prop) (arc : Arc V)
    (p : Pass V T) : Prop :=
  ∀ e : Arc V, e.2 ∈ P.neighbors e.1 → e ≠ arc → e ∉ p.queue → good p.domains e

section OffQueue

variable {good : Domains V T → Arc V → Prop} {p : Pass V T}

/-- Taking an arc off the queue leaves all arcs off the queue in order but that one. -/
lemma OffQueue.but (hp : p.OffQueue P good) {q : Pass V T} {arc : Arc V}
    (hD : q.domains = p.domains) (hrest : ∀ e, e ∈ q.queue ↔ e ≠ arc ∧ e ∈ p.queue) :
    q.OffQueueBut P good arc := by
  intro e hn hne hq
  rw [hD]
  exact hp e hn fun he => hq ((hrest e).mpr ⟨hne, he⟩)

/-- After a revision of `a`, whoever was queued still is; and if the domain of `a` has changed, so
is every arc that leads to `a`, but for the reverse one. -/
lemma listAt_revise_of_not_mem {a b c : V} (hc : a ∈ P.neighbors c) (hcb : c ≠ b)
    (hq : (c, a) ∉ (p.revise P order a b).queue) :
    (p.revise P order a b).domains.listAt a = p.domains.listAt a := by
  rw [listAt_revise, if_pos rfl]
  refine left_eq_of_not_shortens List.filter_sublist fun hshort => hq ?_
  exact (mem_shrink P order).mpr (Or.inl ⟨hshort, rfl, P.neighbors_symm _ _ hc, hcb⟩)

lemma not_mem_of_not_mem_revise {a b : V} {e : Arc V}
    (hq : e ∉ (p.revise P order a b).queue) : e ∉ p.queue :=
  fun he => hq ((mem_shrink P order).mpr (Or.inr he))

end OffQueue

/-! ## One revision -/

section Revise

variable {p : Pass V T} {a b : V} (hsym : P.Symmetric) (h : b ∈ P.neighbors a)

lemma mem_revise {x : T} : x ∈ (p.revise P order a b).domains.listAt a
    ↔ x ∈ p.domains.listAt a ∧ ∃ y ∈ p.domains.listAt b, P.check a x b y = true := by
  rw [listAt_revise, if_pos rfl, List.mem_filter, hasSupport, List.any_eq_true]

lemma listAt_revise_of_ne {v : V} (hv : a ≠ v) :
    (p.revise P order a b).domains.listAt v = p.domains.listAt v := by
  rw [listAt_revise, if_neg hv]

lemma listAt_revise_subset (v : V) :
    (p.revise P order a b).domains.listAt v ⊆ p.domains.listAt v := by
  rw [listAt_revise]
  split
  · rename_i hv
    subst hv
    exact List.filter_sublist.subset
  · exact List.Subset.refl _

include h in
/-- A revision puts its arc in order, and of the arcs off the queue it spoils none but the reverse
one. -/
lemma consistentAt_revise_of_ne {e : Arc V} (hn : e.2 ∈ P.neighbors e.1) (hne : e ≠ (b, a))
    (hp : e ≠ (a, b) → e ∉ p.queue → P.ConsistentAt p.domains e)
    (hq : e ∉ (p.revise P order a b).queue) : P.ConsistentAt (p.revise P order a b).domains e := by
  have hab := P.ne_of_mem_neighbors h
  obtain ⟨c, d⟩ := e
  intro x hx
  by_cases harc : (c, d) = (a, b)
  · obtain ⟨rfl, rfl⟩ := Prod.mk.inj harc
    obtain ⟨-, y, hy, hcheck⟩ := mem_revise.mp hx
    rw [listAt_revise_of_ne hab]
    exact ⟨y, hy, hcheck⟩
  · obtain ⟨y, hy, hcheck⟩ := hp harc (not_mem_of_not_mem_revise hq) x (listAt_revise_subset c hx)
    refine ⟨y, ?_, hcheck⟩
    dsimp only at hn hy ⊢
    by_cases hd : a = d
    · subst hd
      have hcb : c ≠ b := fun hcb => hne (by rw [hcb])
      rwa [listAt_revise_of_not_mem hn hcb hq]
    · rwa [listAt_revise_of_ne hd]

include hsym h in
/-- **A revision puts its arc in order, and spoils no arc off the queue.**  This holds of each arc
by itself, whatever the state of the others. -/
theorem consistentAt_revise {e : Arc V} (hn : e.2 ∈ P.neighbors e.1)
    (hp : e ≠ (a, b) → e ∉ p.queue → P.ConsistentAt p.domains e)
    (hq : e ∉ (p.revise P order a b).queue) : P.ConsistentAt (p.revise P order a b).domains e := by
  by_cases hne : e = (b, a)
  · subst hne
    have hab := P.ne_of_mem_neighbors h
    intro x hx
    rw [listAt_revise_of_ne hab] at hx
    have hba : (b, a) ≠ (a, b) := fun heq => hab (Prod.mk.inj heq).2
    obtain ⟨y, hy, hcheck⟩ := hp hba (not_mem_of_not_mem_revise hq) x hx
    -- the partner has support itself, so it stays
    exact ⟨y, mem_revise.mpr ⟨hy, x, hx, (hsym a b h y x).trans hcheck⟩, hcheck⟩
  · exact consistentAt_revise_of_ne h hn hne hp hq

/-- A revision that leaves something leaves all arcs off the queue with something. -/
theorem inhabited_revise (hp : p.OffQueueBut P (fun D e => D.listAt e.1 ≠ []) (a, b))
    (hleft : (p.revise P order a b).domains.listAt a ≠ []) :
    (p.revise P order a b).OffQueue P fun D e => D.listAt e.1 ≠ [] := by
  rintro ⟨c, e⟩ hn hq
  dsimp only
  by_cases hc : a = c
  · subst hc
    exact hleft
  · rw [listAt_revise_of_ne hc]
    refine hp (c, e) hn ?_ (not_mem_of_not_mem_revise hq)
    rintro heq
    exact hc (Prod.mk.inj heq).1.symm

end Revise

/-! ## A visit is one revision or two -/

section Visits

/-- The values that a partition has not proven contain all that fail a test which the proven ones
pass. -/
lemma filter_unproven {check : T → T → Bool} {xs ys : List T} {known : Partition T T}
    (hknown : known.Knows check xs ys) {q : T → Bool} (hproven : ∀ y ∈ known.proven, q y = true) :
    (known.unproven.filter fun y => !q y) = ys.filter fun y => !q y := by
  refine (hknown.sublist.filter _).eq_of_length ?_
  have hnil : (known.proven.filter fun y => !q y) = [] := by
    rw [List.filter_eq_nil_iff]
    intro y hy
    simp [hproven y hy]
  have hperm := hknown.perm.filter fun y => !q y
  rw [List.filter_append, hnil, List.nil_append] at hperm
  exact hperm.length_eq

variable [DecidableEq T] (hsym : P.Symmetric) {a b : V} (h : b ∈ P.neighbors a)

include hsym h in
/-- Settling the reverse arc is a revision: by symmetry the proven values have support. -/
lemma settleReverse_eq_revise {p : Pass V T} {known : Partition T T} {xs : List T}
    (hknown : known.Knows (fun x y => P.check a x b y) xs (p.domains.listAt b))
    (hsupported : known.supported.toList = p.domains.listAt a) (hq : (b, a) ∈ p.queue) :
    ∃ t : Pass V T, t.domains = p.domains ∧ (∀ e, e ∈ t.queue ↔ e ≠ (b, a) ∧ e ∈ p.queue) ∧
      p.settleReverse P order a b known = t.revise P order b a := by
  have hproven : ∀ y ∈ known.proven, p.hasSupport P b a y = true := by
    intro y hy
    obtain ⟨x, hx, hc⟩ := hknown.proven y hy
    rw [hsupported] at hx
    exact List.any_eq_true.mpr ⟨x, hx, (hsym a b h x y).symm.trans hc⟩
  have hgone : (sift (fun y x => P.check b y a x) (fun _ => known.supported.toList)
      known.unproven).removed.toList
        = (p.domains.listAt b).filter fun y => !p.hasSupport P b a y := by
    rw [removed_sift, hsupported]
    exact filter_unproven hknown hproven
  have hleft : known.without (p.domains.listAt b)
      ((p.domains.listAt b).filter fun y => !p.hasSupport P b a y)
        = (p.domains.listAt b).filter (p.hasSupport P b a) := by
    rw [Partition.without, if_neg, strike_filter]
    simp only [List.any_eq_true, decide_eq_true_eq, not_exists, not_and]
    intro y hy hyp
    simpa [hproven y hyp] using (List.mem_filter.mp hy).2
  refine ⟨{ p with queue := p.queue.remove (b, a) }.countChecks (sift (fun y x => P.check b y a x)
    (fun _ => known.supported.toList) known.unproven).checks, rfl, fun e => ArcQueue.mem_remove, ?_⟩
  rw [settleReverse, if_pos hq]
  dsimp only
  rw [hgone, revise]
  exact congrArg (fun left => shrink P order b a left _ _) hleft

include hsym in
/-- **A visit that goes on has revised its arc**, and perhaps, if that was queued, the reverse
one. -/
theorem visit_eq_revise (how : Propagator V T) {arc : Arc V} (h : arc.2 ∈ P.neighbors arc.1)
    {p q : Pass V T} (hq : p.visit P how arc = .goesOn q) :
    ∃ n r, r = (p.countChecks n).revise P how.order arc.1 arc.2 ∧
      (how.method = .ac3b ∨ p.domains.listAt arc.1 ≠ [] → r.domains.listAt arc.1 ≠ []) ∧
      (q = r ∨ how.method = .ac3b ∧ ∃ t : Pass V T, t.domains = r.domains ∧
        (∀ e, e ∈ t.queue ↔ e ≠ arc.swap ∧ e ∈ r.queue) ∧
        q = t.revise P how.order arc.2 arc.1) := by
  obtain ⟨a, b⟩ := arc
  rw [visit] at hq
  cases hm : how.method with
  | ac3 =>
    rw [hm] at hq
    rcases visitAc3_of_neighbor P how.order h p with ⟨n, ⟨hsome, hgo⟩ | ⟨r, hend, -⟩⟩
    · obtain rfl := Visit.goesOn.inj (hgo.symm.trans hq)
      refine ⟨n, _, rfl, fun hleft => ?_, Or.inl rfl⟩
      rw [listAt_revise, if_pos rfl]
      exact hsome (hleft.resolve_left (by decide))
    · cases hend.symm.trans hq
  | ac3b =>
    rw [hm] at hq
    rcases visitAc3b_of_neighbor P how.order h p with ⟨n, known, hknown, ⟨hne, hgo⟩ | ⟨-, hend⟩⟩
    · obtain rfl := Visit.goesOn.inj (hgo.symm.trans hq)
      have ha : ((p.countChecks n).revise P how.order a b).domains.listAt a
          = (p.domains.listAt a).filter (p.hasSupport P a b) := by
        rw [listAt_revise, if_pos rfl]
        rfl
      refine ⟨n, _, rfl, fun _ => by simpa only [ha] using hne, ?_⟩
      by_cases hrev : (b, a) ∈ ((p.countChecks n).revise P how.order a b).queue
      · right
        have hb : ((p.countChecks n).revise P how.order a b).domains.listAt b
            = p.domains.listAt b := listAt_revise_of_ne (P.ne_of_mem_neighbors h)
        exact ⟨rfl,
          settleReverse_eq_revise hsym h (hb.symm ▸ hknown) (hknown.supported.trans ha.symm) hrev⟩
      · left
        rw [settleReverse, if_neg hrev]
    · cases hend.symm.trans hq

variable {how : Propagator V T} {arc : Arc V} (hn : arc.2 ∈ P.neighbors arc.1) {p q : Pass V T}
  (hq : p.visit P how arc = .goesOn q)

include hsym hn hq in
/-- **A visit puts its arc in order, and spoils no arc off the queue**, each by itself. -/
theorem consistentAt_visit {e : Arc V} (he : e.2 ∈ P.neighbors e.1)
    (hp : e ≠ arc → e ∉ p.queue → P.ConsistentAt p.domains e) (hoff : e ∉ q.queue) :
    P.ConsistentAt q.domains e := by
  obtain ⟨n, r, rfl, -, hlast⟩ := visit_eq_revise hsym how hn hq
  have hfirst : e ∉ ((p.countChecks n).revise P how.order arc.1 arc.2).queue →
      P.ConsistentAt ((p.countChecks n).revise P how.order arc.1 arc.2).domains e :=
    consistentAt_revise hsym hn he hp
  rcases hlast with rfl | ⟨-, t, hD, hrest, rfl⟩
  · exact hfirst hoff
  · refine consistentAt_revise hsym (P.neighbors_symm _ _ hn) he (fun hne hoff' => ?_) hoff
    rw [hD]
    exact hfirst fun hmem => hoff' ((hrest e).mpr ⟨hne, hmem⟩)

omit [DecidableEq T] in
include hsym hn in
/-- If a revision has left values, revising the reverse arc leaves values too: each value left
supports its partner. -/
lemma reverse_revise_ne_nil {order order' : ArcOrder V T} {t : Pass V T}
    (hD : t.domains = (p.revise P order arc.1 arc.2).domains)
    (hleft : (p.revise P order arc.1 arc.2).domains.listAt arc.1 ≠ []) :
    (t.revise P order' arc.2 arc.1).domains.listAt arc.2 ≠ [] := by
  obtain ⟨x, hx⟩ := List.exists_mem_of_ne_nil _ hleft
  obtain ⟨-, y, hy, hc⟩ := mem_revise.mp hx
  have hy' : y ∈ (t.revise P order' arc.2 arc.1).domains.listAt arc.2 := by
    rw [mem_revise, hD, listAt_revise_of_ne (P.ne_of_mem_neighbors hn)]
    exact ⟨hy, x, hx, (hsym _ _ hn x y).symm.trans hc⟩
  exact List.ne_nil_of_mem hy'

include hsym hn hq in
/-- A visit of `ac3b` that goes on leaves values on both sides of its arc. -/
theorem inhabited_visit (hm : how.method = .ac3b)
    (hp : p.OffQueueBut P (fun D e => D.listAt e.1 ≠ []) arc) :
    q.OffQueue P fun D e => D.listAt e.1 ≠ [] := by
  obtain ⟨n, r, rfl, hleft, hlast⟩ := visit_eq_revise hsym how hn hq
  have hleft := hleft (Or.inl hm)
  have hfirst := inhabited_revise (show (p.countChecks n).OffQueueBut P _ arc from hp) hleft
  rcases hlast with rfl | ⟨-, t, hD, hrest, rfl⟩
  · exact hfirst
  · exact inhabited_revise (hfirst.but hD hrest) (reverse_revise_ne_nil hsym hn hD hleft)

omit [DecidableEq T] in
lemma filtered_revise (order : ArcOrder V T) (a b : V) (p : Pass V T) (v : V) :
    ∃ keep : T → Bool,
      (p.revise P order a b).domains.listAt v = (p.domains.listAt v).filter keep := by
  rw [listAt_revise]
  split
  · rename_i hv
    exact ⟨p.hasSupport P a b, by rw [hv]⟩
  · exact ⟨fun _ => true, (List.filter_true _).symm⟩

include hsym hn hq in
/-- A visit that goes on filters the domains. -/
lemma filtered_visit (v : V) :
    ∃ keep : T → Bool, q.domains.listAt v = (p.domains.listAt v).filter keep := by
  obtain ⟨n, r, rfl, -, hlast⟩ := visit_eq_revise hsym how hn hq
  obtain ⟨keep, hkeep⟩ := filtered_revise (P := P) how.order arc.1 arc.2 (p.countChecks n) v
  rcases hlast with rfl | ⟨-, t, hD, -, rfl⟩
  · exact ⟨keep, hkeep⟩
  · obtain ⟨keep', hkeep'⟩ := filtered_revise (P := P) how.order arc.2 arc.1 t v
    refine ⟨fun x => keep' x && keep x, ?_⟩
    rw [hkeep', hD, hkeep, List.filter_filter]
    rfl

end Visits

end Pass

end BinaryCsp
