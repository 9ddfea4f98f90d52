import BinaryCsp.Proofs.Propagation.Revision
import Mathlib.Data.Finset.Card
import Mathlib.Data.Sym.Sym2

/-!
# Violated pairs

`Problem.violated` is the set of unordered pairs of neighbors whose values do not go together.  If
the predicate is symmetric then the pairs of one variable are as many as its conflicts
(`card_filter_mem_violated`), and the others do not depend on its value
(`filter_not_mem_violated_insert`).  So the number of all violated pairs rises and falls with the
conflicts of the one variable that gets another value (`card_violated_insert`).
-/

namespace BinaryCsp

variable {V T : Type} [DecidableEq V]

namespace Problem

/-! ## Pairs -/

/-- Both variables have a value, and the values do not go together, asked in this order. -/
def violates (P : Problem V T) (a : Assignment V T) (v w : V) : Bool :=
  match a.get? v, a.get? w with
  | some x, some y => !P.check v x w y
  | _, _ => false

/-- The unordered pairs of neighbors whose values do not go together, asked in either order. -/
def violated (P : Problem V T) (a : Assignment V T) : Finset (Sym2 V) :=
  ((P.arcs.filter fun arc => P.violates a arc.1 arc.2).map fun arc => s(arc.1, arc.2)).toFinset

variable {P : Problem V T} {a : Assignment V T}

lemma mem_violated {e : Sym2 V} :
    e ∈ P.violated a ↔ ∃ v w, w ∈ P.neighbors v ∧ P.violates a v w = true ∧ s(v, w) = e := by
  simp only [violated, List.mem_toFinset, List.mem_map, List.mem_filter, P.mem_arcs, Prod.exists,
    and_assoc]

lemma violates_insert_of_ne {v u w : V} (hu : v ≠ u) (hw : v ≠ w) (x : T) :
    P.violates (a.insert v x) u w = P.violates a u w := by
  simp only [violates, PartialMap.get?_insert, if_neg hu, if_neg hw]

/-- The conflicts of a variable are the neighbors with which it violates a pair. -/
lemma conflicts_eq_countP {v : V} {x : T} (hx : a.get? v = some x) :
    P.conflicts a v x = (P.neighbors v).countP (P.violates a v) := by
  rw [conflicts, clashes, assignedNeighbors, List.countP_filterMap]
  refine List.countP_congr fun w _ => ?_
  rw [violates, hx]
  cases a.get? w <;> simp

/-! ## Symmetric predicates -/

section Symmetric

variable (hsym : P.Symmetric)

include hsym

lemma violates_comm {v w : V} (hw : w ∈ P.neighbors v) : P.violates a v w = P.violates a w v := by
  rw [violates, violates]
  cases a.get? v with
  | none => cases a.get? w <;> rfl
  | some x =>
    cases a.get? w with
    | none => rfl
    | some y => exact congrArg not (hsym v w hw x y)

lemma mk_mem_violated {v w : V} :
    s(v, w) ∈ P.violated a ↔ w ∈ P.neighbors v ∧ P.violates a v w = true := by
  rw [mem_violated]
  constructor
  · rintro ⟨u, u', hu', hviolates, heq⟩
    rcases Sym2.eq_iff.mp heq with ⟨rfl, rfl⟩ | ⟨rfl, rfl⟩
    · exact ⟨hu', hviolates⟩
    · exact ⟨P.neighbors_symm u u' hu', violates_comm hsym hu' ▸ hviolates⟩
  · rintro ⟨hw, hviolates⟩
    exact ⟨v, w, hw, hviolates, rfl⟩

/-- **The violated pairs of a variable** are as many as its conflicts. -/
theorem card_filter_mem_violated {v : V} {x : T} (hx : a.get? v = some x) :
    ((P.violated a).filter (v ∈ ·)).card = P.conflicts a v x := by
  have hpairs : (P.violated a).filter (v ∈ ·)
      = ((P.neighbors v).filter (P.violates a v)).toFinset.image fun w => s(v, w) := by
    ext e
    simp only [Finset.mem_filter, Finset.mem_image, List.mem_toFinset, List.mem_filter]
    constructor
    · rintro ⟨he, hv⟩
      obtain ⟨w, rfl⟩ := Sym2.mem_iff_exists.mp hv
      exact ⟨w, (mk_mem_violated hsym).mp he, rfl⟩
    · rintro ⟨w, hw, rfl⟩
      exact ⟨(mk_mem_violated hsym).mpr hw, Sym2.mem_mk_left v w⟩
  have hinj : Function.Injective fun w => s(v, w) := fun w w' h => Sym2.congr_right.mp h
  have hnodup : ((P.neighbors v).filter (P.violates a v)).Nodup := (P.neighbors_nodup v).filter _
  rw [hpairs, Finset.card_image_of_injective _ hinj, List.toFinset_card_of_nodup hnodup,
    ← List.countP_eq_length_filter, conflicts_eq_countP hx]

/-- **The pairs without a variable** do not depend on its value. -/
theorem filter_not_mem_violated_insert (v : V) (x : T) :
    (P.violated (a.insert v x)).filter (v ∉ ·) = (P.violated a).filter (v ∉ ·) := by
  ext e
  induction e using Sym2.ind with
  | h u w =>
    simp only [Finset.mem_filter, mk_mem_violated hsym, Sym2.mem_iff, not_or]
    refine and_congr_left fun ⟨hu, hw⟩ => ?_
    rw [violates_insert_of_ne hu hw]

/-- **A variable that gets another value** changes the number of violated pairs by its own
conflicts. -/
theorem card_violated_insert {v : V} {x : T} (hx : a.get? v = some x) (y : T) :
    (P.violated (a.insert v y)).card + P.conflicts a v x
      = (P.violated a).card + P.conflicts a v y := by
  have hy : (a.insert v y).get? v = some y := by
    rw [PartialMap.get?_insert, if_pos rfl]
  have hbefore := (P.violated a).card_filter_add_card_filter_not (v ∈ ·)
  have hafter := (P.violated (a.insert v y)).card_filter_add_card_filter_not (v ∈ ·)
  rw [card_filter_mem_violated hsym hx] at hbefore
  rw [card_filter_mem_violated hsym hy, conflicts_insert_self,
    filter_not_mem_violated_insert hsym] at hafter
  omega

end Symmetric

end Problem

end BinaryCsp
