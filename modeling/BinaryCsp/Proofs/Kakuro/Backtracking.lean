import BinaryCsp.Proofs.Kakuro.Permutations
import Mathlib.Data.List.Nodup

/-!
# The order of the listed sequences, and listing them in place

`digitPermutations` hands every branch the digits that are used up.  The same sequences can be
listed by *backtracking*: all branches share one table of marks, one sequence that grows and
shrinks, and one list of what has been found (`Workspace`).  A branch puts a digit down, goes on,
and takes the digit back; a digit that is larger than what is left of the sum ends the branch, since
so are all that follow.

* `pairwise_digitPermutations` — the sequences stand in strictly ascending lexicographic order, so
  none is listed twice.
* `extend_eq` — backtracking takes back whatever it puts down and adds exactly the sequences that
  the recursion lists, in their order.  No branch subtracts more than is left or reads beyond the
  table of marks, and no more than ten branches are ever open.
* `digitPermutations_exact` — both together, with the sequences that are listed, up to the length
  for which there is room.  Beyond that there is no list, although it would only have to be empty
  (`digitPermutations_overflow`).
-/

namespace BinaryCsp.Kakuro

/-! ## Order -/

lemma pairwise_digits : digits.Pairwise (· < ·) := by decide

lemma pairwise_permutationsAvoiding (len sum : Nat) (used : List Nat) :
    (permutationsAvoiding len sum used).Pairwise (· < ·) := by
  induction len generalizing sum used with
  | zero =>
    rw [permutationsAvoiding]
    split
    · exact List.pairwise_singleton _ _
    · exact .nil
  | succ len ih =>
    rw [permutationsAvoiding, List.pairwise_flatMap]
    constructor
    · rintro d -
      rw [List.pairwise_map]
      exact (ih _ _).imp fun h => List.cons_lt_cons_self.mpr h
    · refine (pairwise_digits.filter _).imp fun hlt => ?_
      intro x hx y hy
      obtain ⟨ds, -, rfl⟩ := List.mem_map.mp hx
      obtain ⟨es, -, rfl⟩ := List.mem_map.mp hy
      exact List.Lex.rel hlt

/-- **The sequences ascend** in lexicographic order. -/
theorem pairwise_digitPermutations (len sum : Nat) :
    (digitPermutations len sum).Pairwise (· < ·) := pairwise_permutationsAvoiding len sum []

/-- It does not matter in which order the digits have been used up. -/
lemma permutationsAvoiding_congr {len sum : Nat} {used used' : List Nat}
    (h : ∀ d, d ∈ used ↔ d ∈ used') :
    permutationsAvoiding len sum used = permutationsAvoiding len sum used' := by
  induction len generalizing sum used used' with
  | zero => rfl
  | succ len ih =>
    have hcons : ∀ d e, e ∈ d :: used ↔ e ∈ d :: used' := fun d e => by
      rw [List.mem_cons, List.mem_cons, h e]
    simp only [permutationsAvoiding, h, ih (hcons _)]

/-! ## Backtracking -/

/-- What all branches share. -/
structure Workspace where
  /-- For every digit whether it has been put down; there is no digit zero. -/
  used : List Bool
  /-- The digits that have been put down. -/
  stem : List Nat
  out : List (List Nat)
  deriving DecidableEq

namespace Workspace

/-- Nothing is put down, and nothing has been found. -/
def start : Workspace := ⟨List.replicate 10 false, [], []⟩

def put (w : Workspace) (d : Nat) : Workspace :=
  { w with used := w.used.set d true, stem := w.stem ++ [d] }

def takeBack (w : Workspace) (d : Nat) : Workspace :=
  { w with used := w.used.set d false, stem := w.stem.dropLast }

/-- The workspace with more sequences found. -/
def adding (w : Workspace) (found : List (List Nat)) : Workspace :=
  { w with out := w.out ++ found }

end Workspace

/-- What is left of a sum, unless more is taken than there is. -/
def subtract? (n m : Nat) : Option Nat := if m ≤ n then some (n - m) else none

/-- Tries digits one by one, and does something with each that has been put down.  Fails where it
would read or write beyond the marks, or subtract too much. -/
def tryDigits (next : Nat → Workspace → Option Workspace) (remaining : Nat) :
    List Nat → Workspace → Option Workspace
  | [], w => some w
  | d :: ds, w =>
    if remaining < d then some w
    else
      match w.used[d]? with
      | none => none
      | some true => tryDigits next remaining ds w
      | some false => do
        let rest ← subtract? remaining d
        let w' ← next rest (w.put d)
        tryDigits next remaining ds (w'.takeBack d)

/-- Extends the digits that have been put down to sequences of a length, and fails if more than
`depth` branches would be open. -/
def extend (len : Nat) : (depth remaining : Nat) → Workspace → Option Workspace
  | 0, _, _ => none
  | depth + 1, remaining, w =>
    if w.stem.length = len then some (if remaining = 0 then w.adding [w.stem] else w)
    else tryDigits (extend len depth) remaining digits w

/-! ## Marks -/

namespace Workspace

/-- The marks are those of the digits that have been put down, and no digit is there twice. -/
structure Marked (w : Workspace) : Prop where
  marks : ∀ d ∈ digits, w.used[d]? = some (decide (d ∈ w.stem))
  nodup : w.stem.Nodup
  subset : w.stem ⊆ digits

lemma marked_start : start.Marked := ⟨by decide, .nil, nofun⟩

variable {w : Workspace} {d : Nat}

@[simp] lemma used_adding (w : Workspace) (l : List (List Nat)) : (w.adding l).used = w.used := rfl

@[simp] lemma stem_adding (w : Workspace) (l : List (List Nat)) : (w.adding l).stem = w.stem := rfl

@[simp] lemma stem_put (w : Workspace) (d : Nat) : (w.put d).stem = w.stem ++ [d] := rfl

@[simp] lemma adding_nil (w : Workspace) : w.adding [] = w := by
  rw [adding, List.append_nil]

@[simp] lemma adding_adding (w : Workspace) (l u : List (List Nat)) :
    (w.adding l).adding u = w.adding (l ++ u) := by
  rw [adding, adding, adding, List.append_assoc]

lemma Marked.adding (h : w.Marked) (l : List (List Nat)) : (w.adding l).Marked :=
  ⟨h.marks, h.nodup, h.subset⟩

lemma Marked.length_le (h : w.Marked) : w.stem.length ≤ 9 :=
  (List.subperm_of_subset h.nodup h.subset).length_le

lemma Marked.lt_length (h : w.Marked) (hd : d ∈ digits) : d < w.used.length :=
  (List.getElem?_eq_some_iff.mp (h.marks d hd)).1

lemma Marked.put (h : w.Marked) (hd : d ∈ digits) (hnew : d ∉ w.stem) : (w.put d).Marked := by
  refine ⟨fun e he => ?_, ?_, ?_⟩
  · rw [Workspace.put, List.getElem?_set]
    by_cases hde : d = e
    · rw [if_pos hde, if_pos (h.lt_length hd)]
      simp [hde]
    · rw [if_neg hde, h.marks e he]
      simp [Ne.symm hde]
  · rw [Workspace.put, ← List.concat_eq_append]
    exact h.nodup.concat hnew
  · exact List.append_subset.mpr ⟨h.subset, List.cons_subset.mpr ⟨hd, List.nil_subset _⟩⟩

/-- **Taking a digit back undoes putting it down**, whatever has been found in between. -/
lemma Marked.takeBack_put (h : w.Marked) (hd : d ∈ digits) (hnew : d ∉ w.stem)
    (l : List (List Nat)) : ((w.put d).adding l).takeBack d = w.adding l := by
  have hmark : w.used[d]? = some false := by rw [h.marks d hd, decide_eq_false hnew]
  obtain ⟨hlt, hfree⟩ := List.getElem?_eq_some_iff.mp hmark
  have hused : (w.used.set d true).set d false = w.used := by
    rw [List.set_set, ← hfree, List.set_getElem_self]
  simp only [takeBack, Workspace.put, Workspace.adding, hused, List.dropLast_concat]

end Workspace

/-! ## What is found -/

section Branch

variable {next : Nat → Workspace → Option Workspace} {remaining : Nat} {w : Workspace}

lemma subtract?_eq_some {n m : Nat} (h : m ≤ n) : subtract? n m = some (n - m) := if_pos h

/-- The digits that are tried are those that are free and not too large. -/
lemma tryDigits_eq {f : Nat → List (List Nat)} (hw : w.Marked)
    (hnext : ∀ d ∈ digits, d ≤ remaining → d ∉ w.stem → ∀ l,
      next (remaining - d) ((w.adding l).put d) = some (((w.adding l).put d).adding (f d)))
    {ds : List Nat} (hsub : ds ⊆ digits) (hsorted : ds.Pairwise (· < ·)) (l : List (List Nat)) :
    tryDigits next remaining ds (w.adding l) = some (w.adding
      (l ++ (ds.filter fun d => decide (d ≤ remaining ∧ d ∉ w.stem)).flatMap f)) := by
  induction ds generalizing l with
  | nil => rw [tryDigits, List.filter_nil, List.flatMap_nil, List.append_nil]
  | cons d ds ih =>
    obtain ⟨hd, hsub⟩ := List.cons_subset.mp hsub
    obtain ⟨hbelow, hsorted⟩ := List.pairwise_cons.mp hsorted
    rw [tryDigits]
    split
    · -- All digits that follow are too large as well.
      rename_i hlt
      have hnone : (d :: ds).filter (fun d => decide (d ≤ remaining ∧ d ∉ w.stem)) = [] := by
        rw [List.filter_eq_nil_iff]
        intro e he
        have hle : d ≤ e := by
          rcases List.mem_cons.mp he with rfl | he
          · exact Nat.le_refl _
          · exact Nat.le_of_lt (hbelow e he)
        simp only [decide_eq_true_eq, not_and_or]
        exact Or.inl (by omega)
      rw [hnone, List.flatMap_nil, List.append_nil]
    · rename_i hle
      rw [Nat.not_lt] at hle
      rw [Workspace.used_adding, hw.marks d hd]
      by_cases hused : d ∈ w.stem
      · rw [decide_eq_true hused, List.filter_cons_of_neg (by simp [hused])]
        exact ih hsub hsorted l
      · have htaken : (((w.adding l).put d).adding (f d)).takeBack d = w.adding (l ++ f d) := by
          rw [(hw.adding l).takeBack_put hd hused, Workspace.adding_adding]
        rw [decide_eq_false hused, List.filter_cons_of_pos (by simp [hused, hle]),
          List.flatMap_cons, ← List.append_assoc, subtract?_eq_some hle]
        dsimp only [Option.bind_eq_bind, Option.bind_some]
        rw [hnext d hd hle hused l, Option.bind_some, htaken]
        exact ih hsub hsorted (l ++ f d)

end Branch

/-- **Backtracking is the recursion on shared state.**  Whatever is put down is taken back, and what
is found is listed in the order of the recursion. -/
theorem extend_eq {len depth remaining : Nat} {w : Workspace} (hw : w.Marked)
    (hlen : w.stem.length ≤ len) (hdepth : min len 9 < w.stem.length + depth) :
    extend len depth remaining w = some (w.adding
      ((permutationsAvoiding (len - w.stem.length) remaining w.stem).map (w.stem ++ ·))) := by
  induction depth generalizing remaining w with
  | zero =>
    have hnine := hw.length_le
    omega
  | succ depth ih =>
    rw [extend]
    split
    · rename_i hall
      rw [hall, Nat.sub_self, permutationsAvoiding]
      split
      · rw [List.map_singleton, List.append_nil]
      · rw [List.map_nil, Workspace.adding_nil]
    · rename_i hmissing
      obtain ⟨k, hk⟩ : ∃ k, len - w.stem.length = k + 1 := ⟨len - w.stem.length - 1, by omega⟩
      have hnext : ∀ d ∈ digits, d ≤ remaining → d ∉ w.stem → ∀ l,
          extend len depth (remaining - d) ((w.adding l).put d) = some (((w.adding l).put d).adding
            (((permutationsAvoiding k (remaining - d) (d :: w.stem)).map (d :: ·)).map
              (w.stem ++ ·))) := by
        intro d hd _ hnew l
        have hput : ((w.adding l).put d).stem.length = w.stem.length + 1 := by
          rw [Workspace.stem_put, Workspace.stem_adding, List.length_append, List.length_singleton]
        have hsame : permutationsAvoiding k (remaining - d) (w.stem ++ [d]) =
            permutationsAvoiding k (remaining - d) (d :: w.stem) :=
          permutationsAvoiding_congr fun e => by simp [or_comm]
        have hcons : ∀ ds, w.stem ++ [d] ++ ds = w.stem ++ d :: ds := fun ds => by
          rw [List.append_assoc, List.singleton_append]
        rw [ih ((hw.adding l).put hd hnew) (by omega) (by omega), hput,
          show len - (w.stem.length + 1) = k by omega, Workspace.stem_put, Workspace.stem_adding,
          hsame, List.map_map]
        simp only [hcons, Function.comp_def]
      have hrun := tryDigits_eq hw hnext (List.Subset.refl _) pairwise_digits []
      rw [Workspace.adding_nil] at hrun
      rw [hrun, hk, permutationsAvoiding, List.map_flatMap, List.nil_append]

/-! ## The list that is asked for -/

/-- A list has, in strictly ascending lexicographic order, all sequences of so many distinct digits
from 1 to 9 that have a given sum, and nothing else. -/
structure Lists (len sum : Nat) (l : List (List Nat)) : Prop where
  ascending : l.Pairwise (· < ·)
  mem_iff : ∀ ds, ds ∈ l ↔
    ds.length = len ∧ ds.Nodup ∧ (∀ d ∈ ds, 1 ≤ d ∧ d ≤ 9) ∧ ds.sum = sum

lemma lists_digitPermutations (len sum : Nat) : Lists len sum (digitPermutations len sum) :=
  ⟨pairwise_digitPermutations len sum, fun _ => mem_digitPermutations⟩

/-- There are not enough digits for a tenth. -/
lemma lists_nil {len : Nat} (h : 9 < len) (sum : Nat) : Lists len sum [] where
  ascending := .nil
  mem_iff ds := by
    refine iff_of_false List.not_mem_nil ?_
    rintro ⟨rfl, hdigits⟩
    have hdistinct : DistinctDigits sum ds := hdigits
    have hle := hdistinct.length_le
    omega

/-- Lists the sequences by backtracking, with room for one of them set aside before any branch is
opened. -/
def listInPlace (len depth sum : Nat) : Except AllocationFault (Option Workspace) :=
  (reserve len).map fun _ => extend len depth sum .start

lemma reserve_of_le {bytes : Nat} (h : bytes ≤ capacity) : reserve bytes = .ok () := if_pos h

lemma reserve_of_lt {bytes : Nat} (h : capacity < bytes) :
    reserve bytes = .error .capacityOverflow := if_neg (Nat.not_le.mpr h)

/-- **What is listed, in which order, and that it is listed in place.**  As long as there is room
for a sequence, the answer is the list of all sequences of the length and the sum, strictly
ascending.  Backtracking finds that list: it never subtracts more than is left, gives the workspace
back as it was, and ten open branches are enough for any length and any sum.  If there is no room,
the answer is a fault; there would be nothing to list. -/
theorem digitPermutations_exact (len sum : Nat) :
    (len ≤ capacity ∧ ∃ l, digitPermutations? len sum = .ok l ∧ Lists len sum l ∧
        ∀ spare, listInPlace len (10 + spare) sum = .ok (some { Workspace.start with out := l })) ∨
      capacity < len ∧ Lists len sum [] ∧ digitPermutations? len sum = .error .capacityOverflow ∧
        ∀ depth, listInPlace len depth sum = .error .capacityOverflow := by
  rcases Nat.lt_or_ge capacity len with hlt | hle
  · have hnine : 9 < len := Nat.lt_trans (by decide) hlt
    refine Or.inr ⟨hlt, lists_nil hnine sum, ?_, fun depth => ?_⟩
    · rw [digitPermutations?, reserve_of_lt hlt]
      rfl
    · rw [listInPlace, reserve_of_lt hlt]
      rfl
  · refine Or.inl ⟨hle, digitPermutations len sum, ?_, lists_digitPermutations len sum,
      fun spare => ?_⟩
    · rw [digitPermutations?, reserve_of_le hle]
      rfl
    · have hfound : extend len (10 + spare) sum .start =
          some { Workspace.start with out := digitPermutations len sum } := by
        rw [extend_eq Workspace.marked_start (Nat.zero_le _) (by simp [Workspace.start]; omega)]
        simp [Workspace.start, Workspace.adding, digitPermutations]
      rw [listInPlace, reserve_of_le hle, hfound]
      rfl

/-- No sequence has as many digits as the largest machine word says, so the list of them is empty.
It is refused all the same. -/
theorem digitPermutations_overflow :
    Lists 18446744073709551615 0 [] ∧
      digitPermutations? 18446744073709551615 0 = .error .capacityOverflow := by
  refine ⟨lists_nil (by decide) 0, ?_⟩
  rw [digitPermutations?, reserve_of_lt (by decide)]
  rfl

/-- Four is three and one, in either order. -/
example : digitPermutations 2 4 = [[1, 3], [3, 1]] := by decide

end BinaryCsp.Kakuro
