import BinaryCsp.Proofs.Search.Recursion

/-!
# Which order of values matters

A search passes over every value that has a conflict, so of the list that a value ordering gives
only the values without one count, in their order (`Backtracking.rest_free`).  The count is the same
whenever a frame comes to a value: the value that the variable still holds from the last try takes
no part in it.

Value orderings that list the same free values in the same order are therefore interchangeable
(`Backtracking.recurse_congr`).  Sorting by conflicts is stable and puts the free values first, so
the least constraining order and the stored one are (`ValueOrdering.alike_leastConstraining`): the
first saves no work and costs none.
-/

namespace BinaryCsp

variable {V T σ : Type} [DecidableEq V] {P : Problem V T}

/-- The values without a conflict, in their order. -/
def Problem.free (P : Problem V T) (a : Assignment V T) (v : V) (xs : List T) : List T :=
  xs.filter fun x => decide (P.conflicts a v x = 0)

/-! ## Sorting by conflicts -/

/-- A stable sort keeps the order of the items whose key is least. -/
lemma filter_mergeSort_key {α : Type} (key : α → Nat) (l : List α) :
    (l.mergeSort fun e f => decide (key e ≤ key f)).filter (fun e => decide (key e = 0))
      = l.filter fun e => decide (key e = 0) := by
  have hsorted : (l.filter fun e => decide (key e = 0)).Pairwise
      fun e f => decide (key e ≤ key f) = true := by
    refine List.pairwise_iff_forall_sublist.mpr fun {e f} hef => ?_
    have he : e ∈ l.filter fun e => decide (key e = 0) := hef.subset List.mem_cons_self
    have hzero : key e = 0 := of_decide_eq_true (List.mem_filter.mp he).2
    exact decide_eq_true (hzero ▸ Nat.zero_le _)
  have htrans : ∀ e f g : α, decide (key e ≤ key f) = true → decide (key f ≤ key g) = true →
      decide (key e ≤ key g) = true := by
    intro e f g h h'
    exact decide_eq_true (Nat.le_trans (of_decide_eq_true h) (of_decide_eq_true h'))
  have htotal : ∀ e f : α, (decide (key e ≤ key f) || decide (key f ≤ key e)) = true := by
    intro e f
    simpa using Nat.le_total (key e) (key f)
  -- the least items are in order already, so they stay a part of the list
  have hsub := (List.sublist_mergeSort htrans htotal hsorted List.filter_sublist).filter
    fun e => decide (key e = 0)
  rw [List.filter_filter] at hsub
  simp only [Bool.and_self] at hsub
  exact (hsub.eq_of_length (((List.mergeSort_perm l _).filter _).length_eq.symm)).symm

/-- Sorting by conflicts leaves the free values in their order. -/
lemma free_byConflicts (a : Assignment V T) (v : V) (xs : List T) :
    P.free a v (ValueOrdering.byConflicts P a v xs) = P.free a v xs := by
  have hkeyed := congrArg (List.map Prod.snd)
    (filter_mergeSort_key Prod.fst (xs.map fun x => (P.conflicts a v x, x)))
  have hmap : ∀ l : List (Nat × T), (∀ e ∈ l, P.conflicts a v e.2 = e.1) →
      P.free a v (l.map Prod.snd) = (l.filter fun e => decide (e.1 = 0)).map Prod.snd := by
    intro l hl
    rw [Problem.free, List.filter_map]
    refine congrArg _ (List.filter_congr fun e he => ?_)
    rw [Function.comp_apply, hl e he]
  have hkeys : ∀ e ∈ xs.map fun x => (P.conflicts a v x, x), P.conflicts a v e.2 = e.1 := by
    intro e he
    obtain ⟨x, -, rfl⟩ := List.mem_map.mp he
    rfl
  have hback : (xs.map fun x => (P.conflicts a v x, x)).map Prod.snd = xs := by
    rw [List.map_map]
    exact List.map_id xs
  rw [← hmap _ fun e he => hkeys e ((List.mergeSort_perm _ _).mem_iff.mp he), ← hmap _ hkeys,
    hback] at hkeyed
  exact hkeyed

/-- Two value orderings give the same free values in the same order, fail alike, and leave the same
context. -/
def ValueOrdering.Alike (f g : ValueOrdering P σ) : Prop :=
  ∀ s a v c, (f.order s a v c).2 = (g.order s a v c).2 ∧
    (f.order s a v c).1.map (P.free a v) = (g.order s a v c).1.map (P.free a v)

/-- The least constraining order and the stored order are alike. -/
theorem ValueOrdering.alike_leastConstraining :
    (leastConstraining P : ValueOrdering P σ).Alike (unordered P) := by
  intro s a v c
  refine ⟨rfl, ?_⟩
  simp only [leastConstraining, unordered]
  cases s.choices? P v with
  | error f => rfl
  | ok xs => exact congrArg Except.ok (free_byConflicts a v xs)

/-! ## Searches with orderings that are alike -/

section Search

variable [DecidableEq T]

/-- **Only free values count.** -/
lemma Backtracking.rest_free (S : Backtracking P σ) {a : Assignment V T} (v : P.Open a)
    (xs : List T)
    (w : World V T σ) : S.rest v xs w = S.rest v (P.free a v.val xs) w := by
  induction xs generalizing w with
  | nil => rfl
  | cons x xs ih =>
    have hnext : S.rest v xs = S.rest v (P.free a v.val xs) := funext ih
    by_cases hfree : P.conflicts a v.val x = 0
    · have hcons : P.free a v.val (x :: xs) = x :: P.free a v.val xs :=
        List.filter_cons_of_pos (decide_eq_true hfree)
      rw [hcons, rest_cons, rest_cons, hnext]
    · have hcons : P.free a v.val (x :: xs) = P.free a v.val xs :=
        List.filter_cons_of_neg (by simpa using hfree)
      have hskip : (S.tryValue v x (.refl a) w).1 = (.ok .unsatisfiable, w) := by
        have hconflict : ¬P.conflicts (Assignment.Over.refl a).val v.val x = 0 := hfree
        rw [tryValue, if_neg hconflict]
      rw [hcons, rest_cons, hskip, Ending.orElse, hnext]

variable {which : VariableOrdering P σ} {f g : ValueOrdering P σ} {rule : Inference P σ}
  {a : Assignment V T}

/-- If two searches fare alike above a variable, they fare alike with its values. -/
lemma Backtracking.rest_congr (v : P.Open a)
    (habove : ∀ (x : T) w, ((mk which f rule).recurse (a.insert v.val x) w).1
      = ((mk which g rule).recurse (a.insert v.val x) w).1) (xs : List T) (w : World V T σ) :
    (mk which f rule).rest v xs w = (mk which g rule).rest v xs w := by
  have hvalue : ∀ x w, ((mk which f rule).tryValue v x (.refl a) w).1
      = ((mk which g rule).tryValue v x (.refl a) w).1 := by
    intro x w
    rw [tryValue, tryValue]
    by_cases hfree : P.conflicts (Assignment.Over.refl a).val v.val x = 0
    · rw [if_pos hfree, if_pos hfree]
      rcases w.state.countAssign.suppose P v.val x with ⟨e | trail, s⟩
      · rfl
      · dsimp only [Assignment.Over.refl, Assignment.Over.assign]
        rcases rule.infer v.val x (a.insert v.val x) ⟨{ w with state := s }, trail⟩
          with ⟨e | verdict, t⟩
        · rfl
        · cases verdict with
          | consistent => exact congrArg (backOut P t.trail) (habove x t.toWorld)
          | inconsistent => rfl
          | interrupted => rfl
    · rw [if_neg hfree, if_neg hfree]
  induction xs generalizing w with
  | nil => rfl
  | cons x xs ih => rw [rest_cons, rest_cons, hvalue, funext ih]

/-- **Searches whose value orderings are alike come to the same end.** -/
theorem Backtracking.recurse_congr (hfg : f.Alike g) (a : Assignment V T) (w : World V T σ) :
    ((mk which f rule).recurse a w).1 = ((mk which g rule).recurse a w).1 := by
  induction hn : (P.unassigned a).length using Nat.strongRecOn generalizing a w with
  | ind n ih =>
    rw [recurse, recurse]
    split
    · rfl
    · rcases w.context.poll with ⟨_ | _, c⟩
      · dsimp only
        rcases which.select w.state a c.countNode with ⟨e | _ | v, c'⟩
        · rfl
        · rfl
        · dsimp only
          obtain ⟨hcontext, hvalues⟩ := hfg w.state a v.val c'
          generalize f.order w.state a v.val c' = listed at hcontext hvalues ⊢
          generalize g.order w.state a v.val c' = listed' at hcontext hvalues ⊢
          rcases listed with ⟨e | xs, c''⟩ <;> rcases listed' with ⟨e' | ys, d⟩ <;>
            obtain rfl : c'' = d := hcontext
          · rw [show e = e' from Except.error.inj hvalues]
          · cases hvalues
          · cases hvalues
          · have hfree : P.free a v.val xs = P.free a v.val ys := Except.ok.inj hvalues
            have habove : ∀ (x : T) w, ((mk which f rule).recurse (a.insert v.val x) w).1
                = ((mk which g rule).recurse (a.insert v.val x) w).1 := by
              intro x w
              exact ih _ (hn ▸ unassigned_insert_lt v x) _ w rfl
            show (mk which f rule).rest v xs ⟨w.state, c''⟩
              = (mk which g rule).rest v ys ⟨w.state, c''⟩
            rw [rest_congr v habove, rest_free, hfree, ← rest_free]
      · rfl

/-- **The least constraining order is the stored order in disguise.**  Whatever the predicate, the
variable ordering, the inference and the limit, a search that tries the least constraining value
first and one that takes the values as they stand come to the same answer or fault, and leave the
same domains in the same order, and the same counters, random numbers and limit behind. -/
theorem Backtracking.leastConstraining_solves_alike (which : VariableOrdering P σ)
    (rule : Inference P σ) (w : World V T σ) :
    (mk which (.leastConstraining P) rule).toStrategy.solve w
      = (mk which (.unordered P) rule).toStrategy.solve w := by
  have hrecurse : ∀ S : Backtracking P σ, S.search w = (S.recurse .empty w).1 :=
    fun S => S.run_eq_answer (.node .bottom) w
  have hsearch : (mk which (.leastConstraining P) rule).search w
      = (mk which (.unordered P) rule).search w := by
    rw [hrecurse, hrecurse, recurse_congr ValueOrdering.alike_leastConstraining]
  exact congrArg (conclude P "backtracking search" w.state.assigns) hsearch

end Search

end BinaryCsp
