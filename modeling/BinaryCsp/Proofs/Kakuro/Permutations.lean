import BinaryCsp.Kakuro.Permutations
import Mathlib.Algebra.GroupWithZero.Nat
import Mathlib.Data.List.Perm.Subperm
import Mathlib.Tactic.Common

/-!
# Which sequences are listed

`mem_digitPermutations`: the digit permutations of a length and a sum are all sequences of distinct
digits of that length and sum, and no others.  The recursion lists them digit by digit, so its
invariant speaks of the digits that are used up already (`mem_permutationsAvoiding`).
-/

namespace BinaryCsp.Kakuro

lemma mem_digits {d : Nat} : d ∈ digits ↔ 1 ≤ d ∧ d ≤ 9 := by
  simp only [digits, List.mem_cons, List.not_mem_nil, or_false]
  omega

lemma mem_permutationsAvoiding {len sum : Nat} {used ds : List Nat} :
    ds ∈ permutationsAvoiding len sum used ↔ ds.length = len ∧ ds.Nodup ∧
      (∀ d ∈ ds, (1 ≤ d ∧ d ≤ 9) ∧ d ∉ used) ∧ ds.sum = sum := by
  induction len generalizing sum used ds with
  | zero =>
    rw [permutationsAvoiding]
    cases ds with
    | nil => by_cases h : sum = 0 <;> simp [h, eq_comm]
    | cons d ds => split <;> simp
  | succ len ih =>
    simp only [permutationsAvoiding, List.mem_flatMap, List.mem_filter, List.mem_map, mem_digits,
      decide_eq_true_eq, ih]
    constructor
    · rintro ⟨d, ⟨hd, hle, hused⟩, es, ⟨hlen, hnd, hes, hsum⟩, rfl⟩
      refine ⟨by rw [List.length_cons, hlen], List.nodup_cons.mpr ⟨?_, hnd⟩, ?_, ?_⟩
      · intro hmem
        exact (hes d hmem).2 List.mem_cons_self
      · intro e he
        rcases List.mem_cons.mp he with rfl | he
        · exact ⟨hd, hused⟩
        · exact ⟨(hes e he).1, fun h => (hes e he).2 (List.mem_cons_of_mem _ h)⟩
      · rw [List.sum_cons, hsum]
        omega
    · rintro ⟨hlen, hnd, hds, hsum⟩
      cases ds with
      | nil => cases hlen
      | cons d es =>
        obtain ⟨hnew, hnd⟩ := List.nodup_cons.mp hnd
        obtain ⟨hd, hused⟩ := hds d List.mem_cons_self
        rw [List.sum_cons] at hsum
        refine ⟨d, ⟨hd, by omega, hused⟩, es, ⟨Nat.succ.inj hlen, hnd, ?_, by omega⟩, rfl⟩
        intro e he
        obtain ⟨hbound, hfree⟩ := hds e (List.mem_cons_of_mem _ he)
        refine ⟨hbound, fun h => ?_⟩
        rcases List.mem_cons.mp h with rfl | h
        · exact hnew he
        · exact hfree h

/-- Distinct digits from 1 to 9 with a given sum. -/
def DistinctDigits (sum : Nat) (ds : List Nat) : Prop :=
  ds.Nodup ∧ (∀ d ∈ ds, 1 ≤ d ∧ d ≤ 9) ∧ ds.sum = sum

/-- **The listed sequences** are those of distinct digits with the right length and sum. -/
theorem mem_digitPermutations {len sum : Nat} {ds : List Nat} :
    ds ∈ digitPermutations len sum ↔ ds.length = len ∧ DistinctDigits sum ds := by
  rw [digitPermutations, mem_permutationsAvoiding]
  simp only [DistinctDigits, List.not_mem_nil, not_false_eq_true, and_true]

lemma DistinctDigits.length_le {sum : Nat} {ds : List Nat} (h : DistinctDigits sum ds) :
    ds.length ≤ 9 := by
  have hsub : ds ⊆ digits := fun d hd => mem_digits.mpr (h.2.1 d hd)
  exact (List.subperm_of_subset h.1 hsub).length_le

end BinaryCsp.Kakuro
