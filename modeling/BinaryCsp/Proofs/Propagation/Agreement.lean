import BinaryCsp.Proofs.Propagation.Singletons

/-!
# What the two methods take for a contradiction

Both methods, in whatever order they take up arcs, leave the greatest arc-consistent family if they
find the domains consistent.  So they leave the same domains, and differ at most in what they take
for a contradiction:

* `ac3` looks at a domain only after it has removed something from it, so it notices the domains
  that *become* empty: its answer is a contradiction exactly if some variable that starts with
  values has none in the greatest family (`Propagator.ac3_inconsistent_iff`);
* `ac3b` looks for a supported value at each visit, so it notices all domains that *are* empty, as
  long as an arc starts there (`Propagator.ac3b_inconsistent_iff`).

With the domains that are left, this is all that `ac3b` computes
(`Propagator.ac3b_computes_greatest`).

A variable without values takes the values of all its neighbors with it.  The two answers come apart
only where nothing is left to take: if variables with neighbors start without values, and so do all
others that the greatest family leaves without any (`Propagator.methods_agree_iff`).
-/

namespace BinaryCsp

variable {V T : Type} [DecidableEq V] [DecidableEq T] {P : Problem V T}

/-! ## Passes -/

namespace Pass

variable {how : Propagator V T} {p : Pass V T}

/-- A pass of `ac3` ends with a contradiction only if it has emptied a domain: the variable had
values, and none of them was needed. -/
theorem exists_emptied_of_run (hm : how.method = .ac3) {F : V → T → Prop}
    (hF : P.MutuallySupported F) (hq : p.QueueOnNeighbors P) (hin : p.domains.Holds F)
    (hbad : (p.run P how).1 = .ok .inconsistent) :
    ∃ v, p.domains.listAt v ≠ [] ∧ ∀ x, ¬ F v x := by
  refine run_induction (P := P)
    (I := fun q => q.QueueOnNeighbors P ∧ q.domains.Holds F ∧
      ∀ v, q.domains.listAt v ≠ [] → p.domains.listAt v ≠ [])
    (R := fun answer _ => answer = .ok .inconsistent →
      ∃ v, p.domains.listAt v ≠ [] ∧ ∀ x, ¬ F v x) ?_ ?_ ⟨hq, hin, fun _ h => h⟩ hbad
  · rintro q r ⟨hq, hin, hsome⟩ hstep
    obtain ⟨d, hd⟩ := removes_step P how q
    obtain ⟨arc, rest, clock, hmem, -, -, hvisit⟩ := visit_of_goesOn hstep
    have hheld := (holds_visit how hF (hq arc hmem) (p := q.taken rest clock) hin).1
    rw [hvisit] at hheld
    rw [hstep] at hd
    refine ⟨queueOnNeighbors_step hq hstep, hheld, fun v hv => hsome v fun hnil => hv ?_⟩
    exact List.sublist_nil.mp (hnil ▸ hd.sublist v)
  · rintro q answer r ⟨hq, hin, hsome⟩ hstep rfl
    rcases cases_of_ends hstep with
      ⟨hans, -⟩ | ⟨arc, rest, clock, hmem, -, ⟨-, hans, -⟩ | ⟨-, hvisit⟩⟩
    · cases hans
    · cases hans
    · have hn := hq arc hmem
      rw [visit, hm] at hvisit
      rcases visitAc3_of_neighbor P how.order hn (q.taken rest clock) with
        ⟨n, ⟨-, hgo⟩ | ⟨t, -, -, -, hne, hnil, -⟩⟩
      · cases hgo.symm.trans hvisit
      · exact ⟨arc.1, hsome arc.1 hne,
          empty_of_filter_eq_nil hF hn (p := q.taken rest clock) hin hnil⟩

end Pass

/-! ## The propagator -/

namespace Propagator

section Answers

variable (how : Propagator V T) (P : Problem V T) (s : State V T) {arcs : Option (List (Arc V))}
  (harcs : P.OnNeighbors (arcs.getD P.arcs)) (trail : Option (Trail V T))

include harcs in
/-- Without a limit propagation over arcs between neighbors comes to a conclusion. -/
lemma concludes : (how.propagate P s arcs trail .never).answer = .ok .consistent ∨
    (how.propagate P s arcs trail .never).answer = .ok .inconsistent := by
  have hnone : P.MutuallySupported fun _ (_ : T) => False := fun _ _ _ _ h => h.elim
  obtain ⟨-, ⟨verdict, hverdict⟩, -⟩ :=
    keeps_supported how P s harcs trail .never hnone fun _ _ h => h.elim
  have hnever := (never_interrupted how P s harcs trail).1
  cases verdict with
  | consistent => exact Or.inl hverdict
  | inconsistent => exact Or.inr hverdict
  | interrupted => exact absurd hverdict hnever

variable (hsym : P.Symmetric)
  (hrest : ∀ e : Arc V, e.2 ∈ P.neighbors e.1 → e ∉ arcs.getD P.arcs →
    P.ConsistentAt (s.domains P) e)

include harcs hsym hrest in
/-- If propagation finds the domains consistent, what it leaves is in the greatest family. -/
lemma exists_greatest_of_choices_ne_nil {limit : Limit}
    (hok : (how.propagate P s arcs trail limit).answer = .ok .consistent) {v : V}
    (hleft : (how.propagate P s arcs trail limit).state.choices P v ≠ []) :
    ∃ x, P.greatest (s.domains P) v x := by
  classical
  obtain ⟨x, hx⟩ := List.exists_mem_of_ne_nil _ hleft
  rw [choices_eq_filter_greatest how P s hsym harcs hrest trail limit hok v] at hx
  exact ⟨x, of_decide_eq_true (List.mem_filter.mp hx).2⟩

include harcs hsym hrest in
/-- If propagation finds the domains consistent, every variable that has values keeps one in the
greatest family. -/
lemma exists_greatest_of_consistent {limit : Limit}
    (hok : (how.propagate P s arcs trail limit).answer = .ok .consistent) {v : V}
    (hv : s.choices P v ≠ []) : ∃ x, P.greatest (s.domains P) v x := by
  have hD := (Pass.start_frame how (s.domains P) (arcs.getD P.arcs) limit).1
  have hleft : (how.propagate P s arcs trail limit).state.choices P v ≠ [] :=
    Pass.listAt_ne_nil_of_run (queueOnNeighbors_start how P s harcs limit) hok
      (by rw [hD]; exact hv)
  exact exists_greatest_of_choices_ne_nil how P s harcs trail hsym hrest hok hleft

end Answers

omit [DecidableEq T] in
/-- No arc between neighbors is left out of the full queue. -/
lemma consistentAt_of_not_mem_arcs (P : Problem V T) (s : State V T) (e : Arc V)
    (he : e.2 ∈ P.neighbors e.1) (hne : e ∉ Option.getD none P.arcs) :
    P.ConsistentAt (s.domains P) e :=
  absurd (P.mem_arcs.mpr he) hne

section Contradictions

variable (order : ArcOrder V T) (P : Problem V T) (s : State V T) (trail : Option (Trail V T))
  (hsym : P.Symmetric)

include hsym in
/-- **`ac3` comes to a contradiction** exactly if some variable that has values has none in the
greatest family. -/
theorem ac3_inconsistent_iff {arcs : Option (List (Arc V))}
    (harcs : P.OnNeighbors (arcs.getD P.arcs))
    (hrest : ∀ e : Arc V, e.2 ∈ P.neighbors e.1 → e ∉ arcs.getD P.arcs →
      P.ConsistentAt (s.domains P) e) :
    (Propagator.propagate ⟨.ac3, order⟩ P s arcs trail .never).answer = .ok .inconsistent ↔
      ∃ v, s.choices P v ≠ [] ∧ ∀ x, ¬ P.greatest (s.domains P) v x := by
  constructor
  · intro hbad
    have hD := (Pass.start_frame ⟨.ac3, order⟩ (s.domains P) (arcs.getD P.arcs) .never).1
    have hin : (Pass.start ⟨.ac3, order⟩ (s.domains P) (arcs.getD P.arcs) .never).domains.Holds
        (P.greatest (s.domains P)) := by
      rw [hD]
      exact P.holds_greatest _
    obtain ⟨v, hv, hnone⟩ := Pass.exists_emptied_of_run rfl
      ((P.arcConsistent_greatest _).mutuallySupported hsym)
      (queueOnNeighbors_start ⟨.ac3, order⟩ P s harcs .never) hin hbad
    rw [hD] at hv
    exact ⟨v, hv, hnone⟩
  · rintro ⟨v, hv, hnone⟩
    refine (concludes _ P s harcs trail).resolve_left fun hok => ?_
    obtain ⟨x, hx⟩ := exists_greatest_of_consistent _ P s harcs trail hsym hrest hok hv
    exact hnone x hx

include hsym in
/-- **`ac3b` comes to a contradiction** from the full queue exactly if some variable with a neighbor
has no value in the greatest family. -/
theorem ac3b_inconsistent_iff :
    (Propagator.propagate ⟨.ac3b, order⟩ P s none trail .never).answer = .ok .inconsistent ↔
      ∃ v, P.neighbors v ≠ [] ∧ ∀ x, ¬ P.greatest (s.domains P) v x := by
  have harcs : P.OnNeighbors (Option.getD none P.arcs) := P.onNeighbors_arcs
  have hrest := consistentAt_of_not_mem_arcs P s
  constructor
  · exact (keeps_supported ⟨.ac3b, order⟩ P s harcs trail .never
      ((P.arcConsistent_greatest _).mutuallySupported hsym) (P.holds_greatest _)).2.2
  · rintro ⟨v, hv, hnone⟩
    refine (concludes _ P s harcs trail).resolve_left fun hok => ?_
    -- all arcs were queued, so `ac3b` has seen that `v` has values left
    have hleft :
        (Propagator.propagate ⟨.ac3b, order⟩ P s none trail .never).state.choices P v ≠ [] :=
      Pass.inhabited_run hsym rfl (queueOnNeighbors_start ⟨.ac3b, order⟩ P s harcs .never)
        (fun e he hq => absurd ((Pass.mem_start _ _ _ _ e).mpr (P.mem_arcs.mpr he)) hq) hok v hv
    obtain ⟨x, hx⟩ :=
      exists_greatest_of_choices_ne_nil _ P s harcs trail hsym hrest hok hleft
    exact hnone x hx

end Contradictions

open scoped Classical in
/-- **`ac3b` computes the greatest arc-consistent family.**  Under a symmetric predicate and without
a limit it answers, whatever the order of its queue, provided that all arcs outside the queue are
in order at the start.  Consistent domains are the greatest family, each in its old order; on a
contradiction the family has no value for some declared variable with a neighbor.  From the full
queue the answer is a contradiction exactly if there is such a variable. -/
theorem ac3b_computes_greatest (order : ArcOrder V T) (P : Problem V T) (s : State V T)
    (arcs : Option (List (Arc V))) (trail : Option (Trail V T)) (hsym : P.Symmetric)
    (harcs : ∀ as ∈ arcs, P.OnNeighbors as)
    (hrest : ∀ as ∈ arcs, ∀ e : Arc V, e.2 ∈ P.neighbors e.1 → e ∉ as →
      P.ConsistentAt (s.domains P) e) :
    let out := Propagator.propagate ⟨.ac3b, order⟩ P s arcs trail .never
    (out.answer = .ok .consistent ∨ out.answer = .ok .inconsistent) ∧
      (out.answer = .ok .consistent → ∀ v, out.state.choices P v
        = (s.choices P v).filter fun x => decide (P.greatest (s.domains P) v x)) ∧
      (out.answer = .ok .inconsistent →
        ∃ v ∈ P.vars, P.neighbors v ≠ [] ∧ ∀ x, ¬ P.greatest (s.domains P) v x) ∧
      (arcs = none → (out.answer = .ok .inconsistent ↔
        ∃ v, P.neighbors v ≠ [] ∧ ∀ x, ¬ P.greatest (s.domains P) v x)) := by
  intro out
  have harcs' : P.OnNeighbors (arcs.getD P.arcs) := onNeighbors_getD harcs
  have hrest' : ∀ e : Arc V, e.2 ∈ P.neighbors e.1 → e ∉ arcs.getD P.arcs →
      P.ConsistentAt (s.domains P) e := by
    cases arcs with
    | none => exact consistentAt_of_not_mem_arcs P s
    | some as => exact hrest as rfl
  refine ⟨concludes _ P s harcs' trail,
    choices_eq_filter_greatest ⟨.ac3b, order⟩ P s hsym harcs' hrest' trail .never,
    fun hbad => ?_, fun hnone => ?_⟩
  · obtain ⟨v, hv, hnothing⟩ := (keeps_supported ⟨.ac3b, order⟩ P s harcs' trail .never
      ((P.arcConsistent_greatest _).mutuallySupported hsym) (P.holds_greatest _)).2.2 hbad
    exact ⟨v, P.mem_vars_of_neighbors_ne_nil hv, hv, hnothing⟩
  · subst hnone
    exact ac3b_inconsistent_iff order P s trail hsym

open scoped Classical in
/-- A ring of three variables with different values, of which the first has been decided: its two
neighbors look at it, and all other arcs are in order.  With two colours that is a contradiction;
with three the neighbors keep what the family has. -/
theorem ac3b_computes_greatest_ring :
    let ring := fun colours => Problem.trio true [1] colours colours .notEqual
    let queue : List (Arc (Fin 3)) := [(1, 0), (2, 0)]
    let out := fun colours =>
      Propagator.propagate ⟨.ac3b, .insertion⟩ (ring colours) .initial (some queue) none .never
    (∀ colours ∈ [[1, 2], [1, 2, 3]], (ring colours).Symmetric ∧ (ring colours).OnNeighbors queue ∧
        ∀ e : Arc (Fin 3), e.2 ∈ (ring colours).neighbors e.1 → e ∉ queue →
          (ring colours).ConsistentAt (ring colours).baseline e) ∧
      (out [1, 2]).answer = .ok .inconsistent ∧
      (∃ v ∈ [0, 1, 2], ∀ x, ¬ (ring [1, 2]).greatest (ring [1, 2]).baseline v x) ∧
      (out [1, 2, 3]).answer = .ok .consistent ∧
      (out [1, 2, 3]).state.choices (ring [1, 2, 3]) 1 = [2, 3] ∧
      [2, 3] = [1, 2, 3].filter fun x =>
        decide ((ring [1, 2, 3]).greatest (ring [1, 2, 3]).baseline 1 x) := by
  intro ring queue out
  have hstart : ∀ colours ∈ [[1, 2], [1, 2, 3]], (ring colours).Symmetric ∧
      (ring colours).OnNeighbors queue ∧
        ∀ e : Arc (Fin 3), e.2 ∈ (ring colours).neighbors e.1 → e ∉ queue →
          (ring colours).ConsistentAt (ring colours).baseline e := by
    intro colours h
    have hqueue : ∀ e ∈ queue, e.2 ∈ (ring []).neighbors e.1 := by decide
    have harcs : ∀ colours ∈ [[1, 2], [1, 2, 3]], ∀ e ∈ (ring colours).arcs, e ∉ queue →
        (ring colours).ConsistentAt (ring colours).baseline e := by decide
    exact ⟨Problem.symmetric_notEqual rfl, hqueue, fun e he =>
      harcs colours h e ((ring colours).mem_arcs.mpr he)⟩
  have hall := fun colours (h : colours ∈ [[1, 2], [1, 2, 3]]) =>
    ac3b_computes_greatest .insertion (ring colours) .initial (some queue) none (hstart colours h).1
      (fun as has => Option.some.inj has ▸ (hstart colours h).2.1)
      (fun as has => Option.some.inj has ▸ (hstart colours h).2.2)
  have hbad : (out [1, 2]).answer = .ok .inconsistent :=
    Pass.read_run (ring [1, 2]) _ _ Prod.fst 9 (by decide +kernel)
  have hgood : (out [1, 2, 3]).answer = .ok .consistent :=
    Pass.read_run (ring [1, 2, 3]) _ _ Prod.fst 9 (by decide +kernel)
  have hleft : (out [1, 2, 3]).state.choices (ring [1, 2, 3]) 1 = [2, 3] :=
    Pass.read_run (ring [1, 2, 3]) _ _ (fun r => r.2.domains.listAt 1) 9 (by decide +kernel)
  obtain ⟨-, -, hnone, -⟩ := hall [1, 2] (by decide)
  obtain ⟨v, hv, -, hnothing⟩ := hnone hbad
  obtain ⟨-, hfilter, -⟩ := hall [1, 2, 3] (by decide)
  exact ⟨hstart, hbad, ⟨v, hv, hnothing⟩, hgood, hleft, hleft.symm.trans (hfilter hgood 1)⟩

section Agreement

variable (order order' : ArcOrder V T) (P : Problem V T) (s : State V T)
  (trail trail' : Option (Trail V T)) (hsym : P.Symmetric)

include hsym in
/-- A contradiction of `ac3` is one between neighbors, so `ac3b` finds it as well. -/
lemma ac3b_inconsistent_of_ac3
    (hbad : (Propagator.propagate ⟨.ac3, order⟩ P s none trail .never).answer = .ok .inconsistent) :
    (Propagator.propagate ⟨.ac3b, order'⟩ P s none trail' .never).answer = .ok .inconsistent := by
  have harcs : P.OnNeighbors (Option.getD none P.arcs) := P.onNeighbors_arcs
  refine (ac3b_inconsistent_iff order' P s trail' hsym).mpr ?_
  exact (keeps_supported ⟨.ac3, order⟩ P s harcs trail .never
    ((P.arcConsistent_greatest _).mutuallySupported hsym) (P.holds_greatest _)).2.2 hbad

include hsym in
/-- If `ac3` finds nothing wrong where `ac3b` does, some variable with a neighbor started empty. -/
lemma exists_empty_of_disagree
    (hok : (Propagator.propagate ⟨.ac3, order⟩ P s none trail .never).answer = .ok .consistent)
    (hbad : (Propagator.propagate ⟨.ac3b, order'⟩ P s none trail' .never).answer
      = .ok .inconsistent) :
    ∃ v, P.neighbors v ≠ [] ∧ s.choices P v = [] := by
  have harcs : P.OnNeighbors (Option.getD none P.arcs) := P.onNeighbors_arcs
  obtain ⟨v, hv, hnone⟩ := (ac3b_inconsistent_iff order' P s trail' hsym).mp hbad
  refine ⟨v, hv, by_contra fun hsome => ?_⟩
  obtain ⟨x, hx⟩ := exists_greatest_of_consistent ⟨.ac3, order⟩ P s harcs trail hsym
    (consistentAt_of_not_mem_arcs P s) hok hsome
  exact hnone x hx

include hsym in
/-- Where some variable with a neighbor starts empty, `ac3b` comes to a contradiction. -/
lemma ac3b_inconsistent_of_empty {v : V} (hv : P.neighbors v ≠ []) (hnil : s.choices P v = []) :
    (Propagator.propagate ⟨.ac3b, order⟩ P s none trail .never).answer = .ok .inconsistent := by
  refine (ac3b_inconsistent_iff order P s trail hsym).mpr ⟨v, hv, fun x hx => ?_⟩
  have hmem : x ∈ s.choices P v := P.holds_greatest _ v x hx
  rw [hnil] at hmem
  exact List.not_mem_nil hmem

end Agreement

/-- **The two methods agree, but for domains that start empty.**  Under a symmetric predicate and
without a limit both come to a conclusion from the full queue, whatever the orders of their queues.
If both find the domains consistent they leave the same lists.  Their answers differ in one way
only, `ac3` finding the domains consistent and `ac3b` not; and they agree exactly if all variables
with neighbors start with values, or if one that starts with values has none in the greatest
arc-consistent family. -/
theorem methods_agree_iff (order order' : ArcOrder V T) (P : Problem V T) (s : State V T)
    (trail trail' : Option (Trail V T)) (hsym : P.Symmetric) :
    let plain := Propagator.propagate ⟨.ac3, order⟩ P s none trail .never
    let double := Propagator.propagate ⟨.ac3b, order'⟩ P s none trail' .never
    (plain.answer = .ok .consistent ∨ plain.answer = .ok .inconsistent) ∧
      (plain.answer = double.answer ∨
        plain.answer = .ok .consistent ∧ double.answer = .ok .inconsistent) ∧
      (plain.answer = .ok .consistent → double.answer = .ok .consistent →
        ∀ v, plain.state.choices P v = double.state.choices P v) ∧
      (plain.answer = double.answer ↔
        (∀ v, P.neighbors v ≠ [] → s.choices P v ≠ []) ∨
          ∃ v, s.choices P v ≠ [] ∧ ∀ x, ¬ P.greatest (s.domains P) v x) := by
  intro plain double
  have harcs : P.OnNeighbors (Option.getD none P.arcs) := P.onNeighbors_arcs
  have hrest := consistentAt_of_not_mem_arcs P s
  have hplain : plain.answer = .ok .consistent ∨ plain.answer = .ok .inconsistent :=
    concludes ⟨.ac3, order⟩ P s harcs trail
  have hdouble : double.answer = .ok .consistent ∨ double.answer = .ok .inconsistent :=
    concludes ⟨.ac3b, order'⟩ P s harcs trail'
  have himp : plain.answer = .ok .inconsistent → double.answer = .ok .inconsistent :=
    ac3b_inconsistent_of_ac3 order order' P s trail trail' hsym
  have hplain_iff := ac3_inconsistent_iff order P s trail hsym harcs hrest
  have hdiffer : plain.answer = double.answer ∨
      plain.answer = .ok .consistent ∧ double.answer = .ok .inconsistent := by
    rcases hplain with hok | hbad
    · exact hdouble.imp (fun hok' => hok.trans hok'.symm) fun hbad' => ⟨hok, hbad'⟩
    · exact Or.inl (hbad.trans (himp hbad).symm)
  refine ⟨hplain, hdiffer, fun hok hok' v => ?_, ⟨fun hagree => ?_, ?_⟩⟩
  · classical
    exact (choices_eq_filter_greatest ⟨.ac3, order⟩ P s hsym harcs hrest trail .never hok v).trans
      (choices_eq_filter_greatest ⟨.ac3b, order'⟩ P s hsym harcs hrest trail' .never hok' v).symm
  · rcases hplain with hok | hbad
    · refine Or.inl fun v hv hnil => ?_
      have hbad' := ac3b_inconsistent_of_empty order' P s trail' hsym hv hnil
      cases (hok.symm.trans hagree).trans hbad'
    · exact Or.inr (hplain_iff.mp hbad)
  · rintro (hall | hsome)
    · refine hdiffer.resolve_right fun ⟨hok, hbad'⟩ => ?_
      obtain ⟨v, hv, hnil⟩ := exists_empty_of_disagree order order' P s trail trail' hsym hok hbad'
      exact hall v hv hnil
    · have hbad := hplain_iff.mpr hsome
      exact hbad.trans (himp hbad).symm

/-- Two numbers in ascending order that can not be: both methods come to a contradiction. -/
theorem methods_agree_iff_ascending :
    let P := Problem.ascending [2, 3] [1, 2]
    P.Symmetric ∧ (∀ v, P.neighbors v ≠ [] → State.initial.choices P v ≠ []) ∧
      (Propagator.propagate ⟨.ac3, .insertion⟩ P .initial none none .never).answer
        = (Propagator.propagate ⟨.ac3b, .largestTarget⟩ P .initial none none .never).answer := by
  intro P
  have hsym : P.Symmetric := Problem.symmetric_ascending _ _
  have hall : ∀ v, P.neighbors v ≠ [] → State.initial.choices P v ≠ [] := by decide
  exact ⟨hsym, hall,
    (methods_agree_iff .insertion .largestTarget P .initial none none hsym).2.2.2.mpr (Or.inl hall)⟩

/-- Two neighbors without values: to `ac3` nothing becomes empty, and `ac3b` finds no support. -/
theorem methods_disagree_on_empty_domains :
    let P := Problem.pair ([] : List Nat) [] .notEqual
    P.Symmetric ∧
      (Propagator.propagate ⟨.ac3, .largestTarget⟩ P .initial none none .never).answer
        = .ok .consistent ∧
      (Propagator.propagate ⟨.ac3b, .largestTarget⟩ P .initial none none .never).answer
        = .ok .inconsistent := by
  intro P
  have hsym : P.Symmetric := fun v w _ x y => congrArg not (decide_eq_decide.mpr eq_comm)
  have hnil : ∀ v, State.initial.choices P v = [] := by decide
  have harcs : P.OnNeighbors (Option.getD none P.arcs) := P.onNeighbors_arcs
  refine ⟨hsym, ?_, ?_⟩
  · refine (concludes _ P .initial harcs none).resolve_right fun hbad => ?_
    obtain ⟨v, hv, -⟩ := (ac3_inconsistent_iff .largestTarget P .initial none hsym harcs
      (consistentAt_of_not_mem_arcs P .initial)).mp hbad
    exact hv (hnil v)
  · exact ac3b_inconsistent_of_empty .largestTarget P .initial none hsym (v := false) (by decide)
      (hnil false)

end Propagator

end BinaryCsp
