import BinaryCsp.Proofs.Propagation.Removal

/-!
# Revising an arc between neighbors

On an arc between neighbors a visit is simpler than on an arc at large: the variables are declared
and differ.  `Pass.revise` cuts the domain of `a` down to the values with support in `b`, and both
methods come down to it: `visitAc3_of_neighbor` and `visitAc3b_of_neighbor` say how.

A pass that starts with arcs between neighbors queues no others (`queueOnNeighbors_visit`), and a
visit never asks the limit (`limit_visit`).
-/

namespace BinaryCsp

open Support

variable {V T : Type} [DecidableEq V]

/-! ## Arcs between neighbors -/

namespace Problem

variable (P : Problem V T)

/-- The predicate answers alike in both orders, on neighbors. -/
def Symmetric : Prop :=
  ∀ v, ∀ w ∈ P.neighbors v, ∀ x y, P.check v x w y = P.check w y v x

/-- Only arcs from a variable to a neighbor. -/
def OnNeighbors (arcs : List (Arc V)) : Prop := ∀ arc ∈ arcs, arc.2 ∈ P.neighbors arc.1

lemma mem_vars_of_mem_neighbors {v w : V} (h : w ∈ P.neighbors v) : v ∈ P.vars ∧ w ∈ P.vars :=
  ⟨P.neighbors_declared w v (P.neighbors_symm v w h), P.neighbors_declared v w h⟩

lemma mem_vars_of_neighbors_ne_nil {v : V} (h : P.neighbors v ≠ []) : v ∈ P.vars := by
  obtain ⟨w, hw⟩ := List.exists_mem_of_ne_nil _ h
  exact (P.mem_vars_of_mem_neighbors hw).1

lemma ne_of_mem_neighbors {v w : V} (h : w ∈ P.neighbors v) : v ≠ w := by
  rintro rfl
  exact P.neighbors_irrefl v h

lemma mem_arcs {arc : Arc V} : arc ∈ P.arcs ↔ arc.2 ∈ P.neighbors arc.1 := by
  obtain ⟨a, b⟩ := arc
  simp only [arcs, List.mem_flatMap, List.mem_map, Prod.mk.injEq]
  constructor
  · rintro ⟨v, -, w, hw, rfl, rfl⟩
    exact hw
  · intro h
    exact ⟨a, (P.mem_vars_of_mem_neighbors h).1, b, h, rfl, rfl⟩

lemma onNeighbors_arcs : P.OnNeighbors P.arcs := fun _ h => P.mem_arcs.mp h

/-- Two variables that are neighbors. -/
def pair (xs ys : List T) (constraint : Constraint Bool T) : Problem Bool T where
  vars := [false, true]
  baseline := ⟨[(false, xs), (true, ys)], by simp⟩
  graph := ⟨[(false, [true]), (true, [false])], by decide⟩
  constraint := constraint
  vars_nodup := by decide
  mem_baseline := by
    intro v
    simp [PartialMap.mem_def, PartialMap.keys]
  neighbors_declared := by decide
  neighbors_nodup := by decide
  neighbors_irrefl := by decide
  neighbors_symm := by decide

/-- Two numbers in ascending order. -/
def ascending (xs ys : List Nat) : Problem Bool Nat :=
  pair xs ys (.ofPredicate fun v x _ y => if v then decide (y < x) else decide (x < y))

lemma symmetric_ascending (xs ys : List Nat) : (ascending xs ys).Symmetric := by
  intro v w hw x y
  cases v <;> cases w
  · exact absurd hw ((ascending xs ys).neighbors_irrefl false)
  · rfl
  · rfl
  · exact absurd hw ((ascending xs ys).neighbors_irrefl true)

lemma symmetric_notEqual [DecidableEq T] {P : Problem V T} (h : P.constraint = .notEqual) :
    P.Symmetric := by
  intro v w _ x y
  rw [check, check, h]
  exact congrArg not (decide_eq_decide.mpr eq_comm)

/-- Three variables in a row, each a neighbor of the next.  In a ring the last is a neighbor of the
first as well. -/
def trio (ring : Bool) (xs ys zs : List T) (constraint : Constraint (Fin 3) T) :
    Problem (Fin 3) T where
  vars := [0, 1, 2]
  baseline := ⟨[(0, xs), (1, ys), (2, zs)], by simp⟩
  graph := ⟨[(0, if ring then [1, 2] else [1]), (1, [0, 2]), (2, if ring then [1, 0] else [1])],
    by simp⟩
  constraint := constraint
  vars_nodup := by decide
  mem_baseline := by
    intro v
    simp [PartialMap.mem_def, PartialMap.keys]
  neighbors_declared := by cases ring <;> decide
  neighbors_nodup := by cases ring <;> decide
  neighbors_irrefl := by cases ring <;> decide
  neighbors_symm := by cases ring <;> decide

end Problem

namespace Pass

variable {P : Problem V T} {order : ArcOrder V T}

/-! ## Visits between neighbors -/

section Revise

variable (P order)

/-- Whether a value of `a` has support in `b`. -/
def hasSupport (a b : V) (p : Pass V T) (x : T) : Bool :=
  (p.domains.listAt b).any (P.check a x b)

/-- Cuts the domain of `a` down to the values with support in `b`. -/
def revise (a b : V) (p : Pass V T) : Pass V T :=
  p.shrink P order a b ((p.domains.listAt a).filter (p.hasSupport P a b))
    ((p.domains.listAt a).filter fun x => !p.hasSupport P a b x)

lemma listAt_revise (a b : V) (p : Pass V T) (v : V) :
    (p.revise P order a b).domains.listAt v
      = if a = v then (p.domains.listAt a).filter (p.hasSupport P a b)
        else p.domains.listAt v :=
  listAt_shrink P order List.filter_sublist v

variable [DecidableEq T]

/-- On an arc between neighbors `ac3` revises, unless that would empty the domain. -/
theorem visitAc3_of_neighbor {a b : V} (h : b ∈ P.neighbors a) (p : Pass V T) :
    ∃ n, ((p.domains.listAt a ≠ [] → (p.domains.listAt a).filter (p.hasSupport P a b) ≠ []) ∧
        p.visitAc3 P order a b = .goesOn ((p.countChecks n).revise P order a b)) ∨
      ∃ q, p.visitAc3 P order a b = .ends (.ok .inconsistent) q ∧ q.limit = p.limit ∧
        q.domains.listAt a = [] ∧ p.domains.listAt a ≠ [] ∧
        (p.domains.listAt a).filter (p.hasSupport P a b) = [] ∧
        ∀ v, a ≠ v → q.domains.listAt v = p.domains.listAt v := by
  obtain ⟨ha, hb⟩ := P.mem_vars_of_mem_neighbors h
  have hab := P.ne_of_mem_neighbors h
  have hsupp : supporters a b (p.domains.listAt b) = fun _ => p.domains.listAt b := by
    funext gone
    rw [supporters, if_neg hab]
  obtain ⟨found, hfound⟩ : ∃ found, sift (fun x y => P.check a x b y)
    (fun _ => p.domains.listAt b) (p.domains.listAt a) = found := ⟨_, rfl⟩
  have hkept : found.kept.toList = (p.domains.listAt a).filter (p.hasSupport P a b) := by
    rw [← hfound]
    exact kept_sift _ _ _
  have hgone : found.removed.toList
      = (p.domains.listAt a).filter fun x => !p.hasSupport P a b x := by
    rw [← hfound]
    exact removed_sift _ _ _
  have hleft : remnant a b (p.domains.listAt a) found
      = (p.domains.listAt a).filter (p.hasSupport P a b) := by
    rw [remnant, if_neg hab, hkept]
  refine ⟨found.checks, ?_⟩
  rw [visitAc3, if_pos ha, if_pos (Or.inl hb), hsupp, hfound]
  simp only [domains_countChecks, hleft, hgone]
  split
  · rename_i hshort
    split
    · rename_i hnil
      have hsome : p.domains.listAt a ≠ [] := by
        rintro hempty
        simp [shortens, hempty] at hshort
      refine Or.inr ⟨_, rfl, rfl, hnil, hsome, ?_, fun v hv => ?_⟩
      · simpa [cut] using hnil
      · simp [cut, hv]
    · rename_i hsome
      left
      refine ⟨fun _ => by simpa [cut] using hsome, ?_⟩
      rw [revise, shrink, if_pos]
      · rfl
      · exact hshort
  · rename_i hshort
    left
    refine ⟨fun hsome => ?_, ?_⟩
    · rw [left_eq_of_not_shortens (p := p) List.filter_sublist hshort]
      exact hsome
    · rw [revise, shrink, if_neg]
      exact hshort

/-- On an arc between neighbors `ac3b` revises and settles the reverse arc, unless no value has
support. -/
theorem visitAc3b_of_neighbor {a b : V} (h : b ∈ P.neighbors a) (p : Pass V T) :
    ∃ n known, Partition.Knows (fun x y => P.check a x b y) (p.domains.listAt a)
        (p.domains.listAt b) known ∧
      (((p.domains.listAt a).filter (p.hasSupport P a b) ≠ [] ∧ p.visitAc3b P order a b
          = .goesOn (((p.countChecks n).revise P order a b).settleReverse P order a b known)) ∨
        (p.domains.listAt a).filter (p.hasSupport P a b) = [] ∧
          p.visitAc3b P order a b = .ends (.ok .inconsistent) (p.countChecks n)) := by
  obtain ⟨ha, hb⟩ := P.mem_vars_of_mem_neighbors h
  obtain ⟨known, hof⟩ : ∃ known, Partition.of (fun x y => P.check a x b y) (p.domains.listAt a)
    (p.domains.listAt b) = known := ⟨_, rfl⟩
  have hknown := Partition.knows_of (fun x y => P.check a x b y) (p.domains.listAt a)
    (p.domains.listAt b)
  rw [hof] at hknown
  have hsupported : known.supported.toList
      = (p.domains.listAt a).filter (p.hasSupport P a b) := hknown.supported
  have hunsupported : known.unsupported.toList
      = (p.domains.listAt a).filter fun x => !p.hasSupport P a b x := hknown.unsupported
  refine ⟨known.checks, known, hknown, ?_⟩
  rw [visitAc3b, if_pos ha, if_pos hb, hof]
  dsimp only
  rw [← Array.isEmpty_toList, hsupported, hunsupported]
  by_cases hnil : (p.domains.listAt a).filter (p.hasSupport P a b) = []
  · right
    refine ⟨hnil, ?_⟩
    rw [hnil, if_pos List.isEmpty_nil]
  · left
    refine ⟨hnil, ?_⟩
    rw [if_neg (by simpa using hnil)]
    rfl

end Revise

/-! ## What stays the same -/

section Frame

variable (P) in
/-- All queued arcs lead from a variable to a neighbor. -/
def QueueOnNeighbors (p : Pass V T) : Prop := ∀ e, e ∈ p.queue → e.2 ∈ P.neighbors e.1

lemma queueOnNeighbors_shrink {p : Pass V T} (h : p.QueueOnNeighbors P) (v except : V)
    (left gone : List T) : (p.shrink P order v except left gone).QueueOnNeighbors P := by
  intro e he
  rcases (mem_shrink P order).mp he with ⟨-, rfl, hmem, -⟩ | hq
  · exact P.neighbors_symm _ _ hmem
  · exact h e hq

lemma queueOnNeighbors_revise {p : Pass V T} (h : p.QueueOnNeighbors P) (a b : V) (n : Nat) :
    ((p.countChecks n).revise P order a b).QueueOnNeighbors P :=
  queueOnNeighbors_shrink (show (p.countChecks n).QueueOnNeighbors P from h) a b _ _

lemma queueOnNeighbors_taken {p : Pass V T} {rest : ArcQueue V} {arc : Arc V}
    (hp : p.QueueOnNeighbors P) (hrest : ∀ e, e ∈ rest ↔ e ≠ arc ∧ e ∈ p.queue) (clock : Nat) :
    (p.taken rest clock).QueueOnNeighbors P := fun e he => hp e ((hrest e).mp he).2

variable [DecidableEq T] (P)

lemma limit_settleReverse (order : ArcOrder V T) (a b : V) (known : Partition T T)
    (p : Pass V T) : (p.settleReverse P order a b known).limit = p.limit := by
  rw [settleReverse]
  split
  · exact limit_shrink P order _ b a _ _
  · rfl

lemma limit_visit (how : Propagator V T) (arc : Arc V) (p : Pass V T) :
    (p.visit P how arc).pass.limit = p.limit := by
  obtain ⟨a, b⟩ := arc
  rw [visit]
  cases how.method with
  | ac3 =>
    simp only [visitAc3]
    repeat' split
    · rfl
    · exact (sameDomains_requeue P how.order a b _).limit
    all_goals rfl
  | ac3b =>
    simp only [visitAc3b]
    repeat' split
    · rfl
    · exact (limit_settleReverse P how.order a b _ _).trans (limit_shrink P how.order _ a b _ _)
    all_goals rfl

variable {P}

lemma queueOnNeighbors_settleReverse {p : Pass V T} (h : p.QueueOnNeighbors P) (a b : V)
    (known : Partition T T) : (p.settleReverse P order a b known).QueueOnNeighbors P := by
  rw [settleReverse]
  split
  · refine queueOnNeighbors_shrink (fun e he => h e ?_) _ _ _ _
    exact (ArcQueue.mem_remove.mp he).2
  · exact h

/-- A visit between neighbors queues only arcs between neighbors. -/
lemma queueOnNeighbors_visit {how : Propagator V T} {arc : Arc V}
    (h : arc.2 ∈ P.neighbors arc.1) {p q : Pass V T} (hp : p.QueueOnNeighbors P)
    (hq : p.visit P how arc = .goesOn q) : q.QueueOnNeighbors P := by
  obtain ⟨a, b⟩ := arc
  rw [visit] at hq
  cases hm : how.method with
  | ac3 =>
    rw [hm] at hq
    rcases visitAc3_of_neighbor P how.order h p with ⟨n, ⟨-, hgo⟩ | ⟨r, hend, -⟩⟩
    · obtain rfl := Visit.goesOn.inj (hgo.symm.trans hq)
      exact queueOnNeighbors_revise hp a b n
    · cases hend.symm.trans hq
  | ac3b =>
    rw [hm] at hq
    rcases visitAc3b_of_neighbor P how.order h p with ⟨n, known, -, ⟨-, hgo⟩ | ⟨-, hend⟩⟩
    · obtain rfl := Visit.goesOn.inj (hgo.symm.trans hq)
      exact queueOnNeighbors_settleReverse (queueOnNeighbors_revise hp a b n) a b known
    · cases hend.symm.trans hq

/-- A pass between neighbors goes on between neighbors. -/
lemma queueOnNeighbors_step {how : Propagator V T} {p q : Pass V T} (hp : p.QueueOnNeighbors P)
    (hstep : p.step P how = .goesOn q) : q.QueueOnNeighbors P := by
  obtain ⟨arc, rest, clock, hmem, hrest, -, hvisit⟩ := visit_of_goesOn hstep
  exact queueOnNeighbors_visit (hp arc hmem) (queueOnNeighbors_taken hp hrest clock) hvisit

end Frame

end Pass

end BinaryCsp
