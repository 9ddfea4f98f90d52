import BinaryCsp.Proofs.Declaration
import Mathlib.Data.List.Basic
import Mathlib.Data.List.Induction

/-!
# Which declarations are accepted

A declaration is three plain lists: variables, domain entries, neighbor entries.  Keys may come
again and entries may come in any order.  Two predicates say what such lists mean, without looking
at how they are read.

* `Problem.Meant` is about the variables: those that are given or, if none are, the keys of the
  domains in ascending order.
* `Problem.WellFormed` is about the rest: no variable is declared twice, exactly the declared
  variables have a domain, each neighbor entry belongs to a declared variable and lists other
  declared variables only, and whoever is listed lists back.

`Problem.exists_build_iff` says that building accepts exactly the well-formed declarations, and
`Problem.of_build` what is built from them.  Of the neighbors, which are read with all entries of
a variable joined, `pairwise_idxOf_eraseDups` tells the order.
-/

namespace BinaryCsp

/-! ## Joining entries -/

namespace PartialMap

variable {K A : Type} [DecidableEq K]

lemma ofList_concat (es : List (K × A)) (e : K × A) :
    ofList (es ++ [e]) = (ofList es).insert e.1 e.2 := by
  rw [ofList, ofList, List.foldl_append]
  rfl

/-- **The last entry of a key counts.** -/
theorem get?_ofList_eq_getLast? (es : List (K × A)) (k : K) :
    (ofList es).get? k = ((es.filter fun e => decide (e.1 = k)).getLast?).map Prod.snd := by
  induction es using List.reverseRecOn with
  | nil => rfl
  | append_singleton es e ih =>
    rw [ofList_concat, get?_insert, List.filter_append]
    by_cases h : e.1 = k
    · simp [h]
    · simp [h, ih]

lemma mem_ofList {es : List (K × A)} {k : K} : k ∈ ofList es ↔ ∃ a, (k, a) ∈ es := by
  induction es using List.reverseRecOn with
  | nil => simp [ofList, mem_def, keys, empty]
  | append_singleton es e ih =>
    rw [ofList_concat, mem_insert, ih]
    simp only [List.mem_append, List.mem_singleton, Prod.ext_iff]
    constructor
    · rintro (rfl | ⟨a, ha⟩)
      · exact ⟨e.2, Or.inr ⟨rfl, rfl⟩⟩
      · exact ⟨a, Or.inl ha⟩
    · rintro ⟨a, ha | ⟨rfl, -⟩⟩
      · exact Or.inr ⟨a, ha⟩
      · exact Or.inl rfl

end PartialMap

section FirstMentions

variable {A : Type} [DecidableEq A]

/-- Items that pass a test come in the same order before and after the others have gone. -/
lemma idxOf_lt_of_filter {p : A → Bool} {a b : A} (ha : p a = true) (hb : p b = true) {l : List A}
    (h : (l.filter p).idxOf a < (l.filter p).idxOf b) : l.idxOf a < l.idxOf b := by
  induction l with
  | nil => exact h
  | cons x l ih =>
    rcases eq_or_ne x a with rfl | hxa
    · have hxb : x ≠ b := by
        rintro rfl
        exact Nat.lt_irrefl _ h
      rw [List.idxOf_cons_self, List.idxOf_cons_ne _ hxb]
      omega
    · rcases eq_or_ne x b with rfl | hxb
      · rw [List.filter_cons_of_pos hb, List.idxOf_cons_self] at h
        omega
      · have hlt : l.idxOf a < l.idxOf b := by
          refine ih ?_
          by_cases hx : p x = true
          · rw [List.filter_cons_of_pos hx, List.idxOf_cons_ne _ hxa, List.idxOf_cons_ne _ hxb] at h
            omega
          · rwa [List.filter_cons_of_neg hx] at h
        rw [List.idxOf_cons_ne _ hxa, List.idxOf_cons_ne _ hxb]
        omega

/-- **Without repetitions a list keeps its items in the order of their first occurrence.** -/
theorem pairwise_idxOf_eraseDups : (l : List A) →
    l.eraseDups.Pairwise fun a b => l.idxOf a < l.idxOf b
  | [] => by simp
  | x :: l => by
    have hne : ∀ a ∈ (l.filter fun b => !b == x).eraseDups, a ≠ x := by
      intro a ha
      simpa using (List.mem_filter.mp (List.mem_eraseDups.mp ha)).2
    rw [List.eraseDups_cons, List.pairwise_cons]
    constructor
    · intro a ha
      rw [List.idxOf_cons_self, List.idxOf_cons_ne _ (hne a ha).symm]
      omega
    · refine (pairwise_idxOf_eraseDups (l.filter fun b => !b == x)).imp_of_mem ?_
      intro a b ha hb hlt
      have := idxOf_lt_of_filter (by simpa using hne a ha) (by simpa using hne b hb) hlt
      rw [List.idxOf_cons_ne _ (hne a ha).symm, List.idxOf_cons_ne _ (hne b hb).symm]
      omega
termination_by l => l.length
decreasing_by exact Nat.lt_succ_of_le (List.length_filter_le _ _)

end FirstMentions

namespace Problem

variable {V T : Type} [DecidableEq V]

/-! ## What a declaration means -/

/-- The variables that a declaration means: those that are given or, if none are, the keys of the
domains in ascending order. -/
def Meant [LE V] (given : List V) (domains : List (V × List T)) (vars : List V) : Prop :=
  if given = [] then
    vars.Pairwise (· ≤ ·) ∧ vars.Nodup ∧ ∀ v, v ∈ vars ↔ ∃ xs, (v, xs) ∈ domains
  else vars = given

/-- All that the entries of a variable list, one entry after the other. -/
def mentioned (neighbors : List (V × List V)) (v : V) : List V :=
  (neighbors.filter fun e => decide (e.1 = v)).flatMap Prod.snd

/-- Nothing is wrong with a declaration of these variables. -/
structure WellFormed (vars : List V) (domains : List (V × List T))
    (neighbors : List (V × List V)) : Prop where
  nodup : vars.Nodup
  keys : ∀ v, (∃ xs, (v, xs) ∈ domains) ↔ v ∈ vars
  owners : ∀ e ∈ neighbors, e.1 ∈ vars
  others : ∀ e ∈ neighbors, ∀ w ∈ e.2, w ∈ vars ∧ w ≠ e.1
  symmetric : ∀ v w, w ∈ mentioned neighbors v → v ∈ mentioned neighbors w

lemma mem_mentioned {neighbors : List (V × List V)} {v w : V} :
    w ∈ mentioned neighbors v ↔ w ∈ joined neighbors v := List.mem_eraseDups.symm

section Building

variable [LE V] [DecidableLE V] {given : List V} {domains : List (V × List T)}
  {neighbors : List (V × List V)} {constraint : Constraint V T}

/-! ## What is built -/

/-- **What an accepted problem consists of**, and what its neighbor entries were. -/
theorem of_build {P : Problem V T} (h : build given domains neighbors constraint = .ok P) :
    P.vars = declared given (PartialMap.ofList domains) ∧
      P.baseline = PartialMap.ofList domains ∧ P.constraint = constraint ∧
      (∀ e ∈ neighbors, e.1 ∈ P.vars ∧ ∀ w ∈ e.2, w ≠ e.1 ∧ w ∈ P.vars) ∧
      ∀ v, P.neighbors v = joined neighbors v := by
  simp only [build] at h
  split at h
  · cases h
  · rename_i hdeclared
    split at h
    · cases h
    · split at h
      · cases h
      · rename_i hentries
        have hlists := entriesFault_eq_none_iff.mp hentries
        split at h
        · cases h
        · cases h
          have hnodup := (declarationFault_eq_none_iff.mp hdeclared).1
          have hgraph := listAt_graph hnodup fun e he => (hlists e he).1
          exact ⟨rfl, rfl, rfl, hlists, hgraph⟩

/-- **Building accepts exactly the well-formed declarations.** -/
theorem exists_build_iff :
    (∃ P, build given domains neighbors constraint = .ok P) ↔
      WellFormed (declared given (PartialMap.ofList domains)) domains neighbors := by
  constructor
  · rintro ⟨P, hP⟩
    obtain ⟨hvars, hbaseline, -, hlists, hneighbors⟩ := of_build hP
    rw [← hvars]
    refine ⟨P.vars_nodup, fun v => ?_, fun e he => (hlists e he).1,
      fun e he w hw => ((hlists e he).2 w hw).symm, fun v w hw => ?_⟩
    · rw [← PartialMap.mem_ofList, ← hbaseline]
      exact P.mem_baseline v
    · rw [mem_mentioned, ← hneighbors] at hw ⊢
      exact P.neighbors_symm v w hw
  · intro h
    obtain ⟨P, hP, -⟩ := build_eq_ok constraint rfl h.nodup
      (fun v => PartialMap.mem_ofList.trans (h.keys v))
      (fun e he => ⟨h.owners e he, fun w hw => (h.others e he w hw).symm⟩)
      (fun v w hw => mem_mentioned.mp (h.symmetric v w (mem_mentioned.mpr hw)))
    exact ⟨P, hP⟩

/-! ## The variables -/

section Variables

variable [Std.IsLinearOrder V]

lemma meant_declared (given : List V) (domains : List (V × List T)) :
    Meant given domains (declared given (PartialMap.ofList domains)) := by
  rw [Meant, declared]
  cases given with
  | cons v vs => simp
  | nil =>
    simp only [List.isEmpty_nil, if_true]
    refine ⟨?_, ?_, fun v => ?_⟩
    · have hsorted : ((PartialMap.ofList domains).keys.mergeSort fun a b => decide (a ≤ b)).Pairwise
          fun a b => decide (a ≤ b) = true := by
        refine List.pairwise_mergeSort (fun a b c hab hbc => ?_) (fun a b => ?_) _
        · exact decide_eq_true (Std.le_trans (of_decide_eq_true hab) (of_decide_eq_true hbc))
        · simpa using Std.le_total
      exact hsorted.imp of_decide_eq_true
    · exact (List.mergeSort_perm _ _).nodup_iff.mpr (PartialMap.nodup_keys _)
    · rw [List.mem_mergeSort, ← PartialMap.mem_def, PartialMap.mem_ofList]

omit [DecidableEq V] [DecidableLE V] in
/-- A declaration means one list of variables. -/
lemma Meant.unique {vars vars' : List V} (h : Meant given domains vars)
    (h' : Meant given domains vars') : vars = vars' := by
  rw [Meant] at h h'
  split at h
  · rename_i hnone
    rw [if_pos hnone] at h'
    obtain ⟨hsorted, hnodup, hmem⟩ := h
    obtain ⟨hsorted', hnodup', hmem'⟩ := h'
    have hperm : vars.Perm vars' :=
      (List.perm_ext_iff_of_nodup hnodup hnodup').mpr fun v => (hmem v).trans (hmem' v).symm
    exact hperm.eq_of_pairwise (fun a b _ _ => Std.le_antisymm) hsorted hsorted'
  · rename_i hsome
    rw [if_neg hsome] at h'
    exact h.trans h'.symm

end Variables

end Building

/-- **Building accepts exactly the well-formed declarations, and builds what they say.**  A problem
comes of three lists exactly if they are well-formed with respect to the variables that are meant.
It declares these variables, in their order; of two domains of one variable it has the later; and
the neighbors of a variable are what its entries list, all joined, each where it is mentioned first.
No variable neighbors itself, and of two variables each neighbors the other or neither does. -/
theorem build_exact {V T : Type} [DecidableEq V] [LE V] [DecidableLE V] [Std.IsLinearOrder V]
    (given : List V) (domains : List (V × List T)) (neighbors : List (V × List V))
    (constraint : Constraint V T) :
    ((∃ P, build given domains neighbors constraint = .ok P) ↔
        ∃ vars, Meant given domains vars ∧ WellFormed vars domains neighbors) ∧
      ∀ P, build given domains neighbors constraint = .ok P →
        Meant given domains P.vars ∧ P.constraint = constraint ∧
        (∀ v, P.baseline.get? v
          = ((domains.filter fun e => decide (e.1 = v)).getLast?).map Prod.snd) ∧
        ∀ v, (P.neighbors v).Nodup ∧ v ∉ P.neighbors v ∧
          (∀ w, w ∈ P.neighbors v ↔ w ∈ mentioned neighbors v) ∧
          ((P.neighbors v).Pairwise fun a b =>
            (mentioned neighbors v).idxOf a < (mentioned neighbors v).idxOf b) ∧
          ∀ w, w ∈ P.neighbors v ↔ v ∈ P.neighbors w := by
  have hmeant := meant_declared given domains
  refine ⟨exists_build_iff.trans ⟨fun h => ⟨_, hmeant, h⟩, ?_⟩, fun P hP => ?_⟩
  · rintro ⟨vars, hvars, h⟩
    rwa [hvars.unique hmeant] at h
  · obtain ⟨hvars, hbaseline, hconstraint, -, hneighbors⟩ := of_build hP
    refine ⟨hvars ▸ hmeant, hconstraint, fun v => ?_, fun v => ⟨P.neighbors_nodup v,
      P.neighbors_irrefl v, fun w => ?_, ?_, fun w => ⟨P.neighbors_symm v w, P.neighbors_symm w v⟩⟩⟩
    · rw [hbaseline]
      exact PartialMap.get?_ofList_eq_getLast? domains v
    · rw [hneighbors, mem_mentioned]
    · rw [hneighbors]
      exact pairwise_idxOf_eraseDups (mentioned neighbors v)

/-- No variables are given, a domain is replaced, and one neighbor is listed three times. -/
theorem build_exact_repeated :
    let domains := [(2, ["a"]), (1, ["b"]), (2, ["c"])]
    let neighbors := [(2, [1, 1]), (1, [2]), (2, [1])]
    Std.IsLinearOrder Nat ∧ ∃ P, build [] domains neighbors .notEqual = .ok P ∧
      Meant [] domains P.vars ∧ P.baseline.get? 2 = some ["c"] ∧ (P.neighbors 2).Nodup := by
  intro domains neighbors
  have hmem : ∀ v, v ∈ [1, 2] ↔ ∃ xs, (v, xs) ∈ domains := by
    intro v
    simp only [domains, List.mem_cons, Prod.mk.injEq, List.not_mem_nil, or_false]
    constructor
    · rintro (rfl | rfl)
      · exact ⟨["b"], by simp⟩
      · exact ⟨["a"], by simp⟩
    · rintro ⟨xs, ⟨rfl, -⟩ | ⟨rfl, -⟩ | ⟨rfl, -⟩⟩ <;> simp
  have hmeant : Meant [] domains [1, 2] := ⟨by decide, by decide, hmem⟩
  have hsymm : ∀ v w, w ∈ mentioned neighbors v → v ∈ mentioned neighbors w := by
    intro v w
    simp only [mentioned, neighbors, List.mem_flatMap, List.mem_filter, decide_eq_true_eq]
    rintro ⟨e, ⟨he, rfl⟩, hw⟩
    simp only [List.mem_cons, List.not_mem_nil, or_false] at he
    rcases he with rfl | rfl | rfl <;> simp_all
  have hwf : WellFormed [1, 2] domains neighbors :=
    ⟨by decide, fun v => (hmem v).symm, by decide, by decide, hsymm⟩
  obtain ⟨haccepts, hbuilt⟩ := build_exact [] domains neighbors (.notEqual : Constraint Nat String)
  obtain ⟨P, hP⟩ := haccepts.mpr ⟨[1, 2], hmeant, hwf⟩
  obtain ⟨hvars, -, hdomains, hneighbors⟩ := hbuilt P hP
  exact ⟨inferInstance, P, hP, hvars, hdomains 2, (hneighbors 2).1⟩

end Problem

end BinaryCsp
