import BinaryCsp.Assignment
import Mathlib.Data.List.Perm.Subperm
import Mathlib.Tactic.Common

/-!
# Solutions

What the goal test and the count of conflicts mean: an assignment passes the test if it assigns
exactly the declared variables and is consistent (`Problem.goalTest_iff`).  A solution also takes
its values from given choices (`Problem.goalTest_and_within_iff`).
-/

namespace BinaryCsp

variable {V T : Type} [DecidableEq V] {P : Problem V T}

/-- All values of an assignment stand in the lists. -/
def Assignment.Within (τ : Assignment V T) (avail : V → List T) : Prop :=
  ∀ v x, τ.get? v = some x → x ∈ avail v

lemma Assignment.Within.mono {τ : Assignment V T} {avail avail' : V → List T}
    (h : τ.Within avail) (hsub : ∀ v, avail v ⊆ avail' v) : τ.Within avail' :=
  fun v x hx => hsub v (h v x hx)

lemma Assignment.Within.insert {a : Assignment V T} {avail : V → List T} (h : a.Within avail)
    {v : V} {x : T} (hx : x ∈ avail v) : Assignment.Within (a.insert v x) avail := by
  intro u y hy
  rw [PartialMap.get?_insert] at hy
  split at hy
  · rename_i huv
    obtain rfl := Option.some.inj hy
    exact huv ▸ hx
  · exact h u y hy

namespace Problem

/-- Assigned neighbors go together. -/
def Consistent (P : Problem V T) (a : Assignment V T) : Prop :=
  ∀ v, ∀ w ∈ P.neighbors v, ∀ x y, a.get? v = some x → a.get? w = some y → P.check v x w y = true

lemma consistent_empty (P : Problem V T) : P.Consistent .empty := nofun

/-- Every declared variable has a value from its choices. -/
def Selects (P : Problem V T) (choices : V → List T) (τ : Assignment V T) : Prop :=
  ∀ v ∈ P.vars, ∃ x ∈ choices v, τ.get? v = some x

/-- A value from the choices for every declared variable, and for no other, such that neighbors go
together, whichever of the two is asked first. -/
structure IsSolution (P : Problem V T) (choices : V → List T) (τ : Assignment V T) : Prop where
  declared : ∀ v, v ∈ τ ↔ v ∈ P.vars
  chosen : ∀ v x, τ.get? v = some x → x ∈ choices v
  checked : ∀ v, ∀ w ∈ P.neighbors v, ∀ x y, τ.get? v = some x → τ.get? w = some y →
    P.check v x w y = true

lemma conflicts_eq_zero_iff {a : Assignment V T} {v : V} {x : T} :
    P.conflicts a v x = 0 ↔
      ∀ w ∈ P.neighbors v, ∀ y, a.get? w = some y → P.check v x w y = true := by
  rw [conflicts, clashes, List.countP_eq_zero]
  simp only [assignedNeighbors, List.mem_filterMap, Option.map_eq_some_iff]
  constructor
  · intro h w hw y hy
    simpa using h (w, y) ⟨w, hw, y, hy, rfl⟩
  · rintro h e ⟨w, hw, y, hy, rfl⟩
    simpa using h w hw y hy

/-- Listing exactly the variables of the problem is a matter of size, from either side. -/
lemma mem_iff_of_size_eq {a : Assignment V T} (hsize : a.size = P.vars.length)
    (hsub : (∀ v ∈ a, v ∈ P.vars) ∨ ∀ v ∈ P.vars, v ∈ a) (v : V) : v ∈ a ↔ v ∈ P.vars := by
  have hlen : a.keys.length = P.vars.length := a.length_keys.trans hsize
  have hperm : a.keys.Perm P.vars := by
    rcases hsub with hsub | hsub
    · exact (List.subperm_of_subset a.nodup_keys hsub).perm_of_length_le (Nat.le_of_eq hlen.symm)
    · exact ((List.subperm_of_subset P.vars_nodup hsub).perm_of_length_le (Nat.le_of_eq hlen)).symm
  exact hperm.mem_iff

/-- **The goal test** asks whether exactly the declared variables are assigned, consistently. -/
theorem goalTest_iff {a : Assignment V T} :
    P.goalTest a = true ↔ (∀ v, v ∈ a ↔ v ∈ P.vars) ∧ P.Consistent a := by
  rw [goalTest, Bool.and_eq_true, beq_iff_eq, List.all_eq_true]
  constructor
  · rintro ⟨hsize, hall⟩
    have hvalue : ∀ v ∈ P.vars, ∃ x, a.get? v = some x ∧ P.conflicts a v x = 0 := by
      intro v hv
      have hv := hall v hv
      cases hx : a.get? v with
      | none => simp [hx] at hv
      | some x => exact ⟨x, rfl, by simpa [hx] using hv⟩
    have hdecl := mem_iff_of_size_eq hsize <| Or.inr fun v hv => by
      obtain ⟨x, hx, -⟩ := hvalue v hv
      exact PartialMap.mem_iff_exists.mpr ⟨_, hx⟩
    refine ⟨hdecl, fun v w hw x y hx hy => ?_⟩
    have hv : v ∈ a := PartialMap.mem_iff_exists.mpr ⟨_, hx⟩
    obtain ⟨x', hx', hzero⟩ := hvalue v ((hdecl v).mp hv)
    obtain rfl := Option.some.inj (hx.symm.trans hx')
    exact conflicts_eq_zero_iff.mp hzero w hw y hy
  · rintro ⟨hdecl, hcons⟩
    constructor
    · have hperm : a.keys.Perm P.vars :=
        (List.perm_ext_iff_of_nodup a.nodup_keys P.vars_nodup).mpr hdecl
      rw [← PartialMap.length_keys, hperm.length_eq]
    · intro v hv
      obtain ⟨x, hx⟩ := PartialMap.mem_iff_exists.mp ((hdecl v).mpr hv)
      rw [hx, beq_iff_eq]
      exact conflicts_eq_zero_iff.mpr fun w hw y hy => hcons v w hw x y hx hy

/-- **Solutions** are the assignments with values from the choices that pass the goal test. -/
theorem goalTest_and_within_iff {a : Assignment V T} {choices : V → List T} :
    P.goalTest a = true ∧ a.Within choices ↔ P.IsSolution choices a := by
  rw [goalTest_iff]
  constructor
  · rintro ⟨⟨hdecl, hcons⟩, hwithin⟩
    exact ⟨hdecl, hwithin, hcons⟩
  · intro h
    exact ⟨⟨h.declared, h.checked⟩, h.chosen⟩

lemma IsSolution.exists_value {τ : Assignment V T} {choices : V → List T}
    (h : P.IsSolution choices τ) {v : V} (hv : v ∈ P.vars) : ∃ x, τ.get? v = some x :=
  PartialMap.mem_iff_exists.mp ((h.declared v).mpr hv)

end Problem

end BinaryCsp
