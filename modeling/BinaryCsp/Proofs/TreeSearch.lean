import BinaryCsp.Proofs.Search.Invariant

/-!
# The tree of partial solutions

Seen from outside, a problem is a tree: its root is the empty assignment, and an action leads from
one assignment to the next by giving the first open variable a value without a conflict.  A `Path`
is a sequence of actions from the root.

An assignment is reached by a path exactly if it is a *partial solution*: it assigns the variables
up to some point of their order, from their domains and consistently (`Problem.reaches_iff`).  The
path lists the values of the assignment in the order of the variables, so there is only one.  An
action only asks whether the new variable goes with the others; that the others go with the new
one, which the goal test asks, too, follows if the order of asking does not matter.

Assignments are compared by their values.  In which order an assignment got them does not count.
-/

namespace BinaryCsp

/-! ## Mappings with the same keys in the same order -/

namespace PartialMap

variable {K A : Type} [DecidableEq K]

lemma entries_eq_filterMap (m : PartialMap K A) :
    m.entries = m.keys.filterMap fun k => (m.get? k).map fun a => (k, a) := by
  calc m.entries = m.entries.filterMap some := List.filterMap_some.symm
    _ = m.entries.filterMap fun e => (m.get? e.1).map fun a => (e.1, a) :=
        List.filterMap_congr fun e he => by rw [get?_eq_some_iff.mpr he, Option.map_some]
    _ = m.keys.filterMap fun k => (m.get? k).map fun a => (k, a) := by
        rw [keys, List.filterMap_map]
        rfl

/-- Mappings are equal if their keys come in the same order and have the same values. -/
lemma ext_of_keys {m n : PartialMap K A} (hkeys : m.keys = n.keys)
    (hvalues : ∀ k, m.get? k = n.get? k) : m = n := by
  apply ext_entries
  rw [entries_eq_filterMap m, entries_eq_filterMap n, hkeys]
  simp only [hvalues]

lemma mem_congr {m n : PartialMap K A} (h : ∀ k, m.get? k = n.get? k) (k : K) :
    k ∈ m ↔ k ∈ n := by
  rw [mem_iff_isSome, mem_iff_isSome, h]

end PartialMap

variable {V T : Type} [DecidableEq V] {P : Problem V T}

/-! ## Assignments that say less -/

lemma Assignment.Within.of_agrees {a τ : Assignment V T} {avail : V → List T} (h : τ.Within avail)
    (hagrees : a.Agrees τ) : a.Within avail := fun v x hx => h v x (hagrees v x hx)

lemma Problem.Consistent.of_agrees {a τ : Assignment V T} (h : P.Consistent τ)
    (hagrees : a.Agrees τ) : P.Consistent a :=
  fun v w hw x y hx hy => h v w hw x y (hagrees v x hx) (hagrees w y hy)

lemma Assignment.agrees_erase (τ : Assignment V T) (v : V) :
    Assignment.Agrees (τ.erase v) τ := by
  intro w y hy
  rw [PartialMap.get?_erase] at hy
  split at hy
  · cases hy
  · exact hy

namespace Problem

/-! ## Paths -/

/-- The actions that lead from the empty assignment to another, the first one first. -/
inductive Path (P : Problem V T) : List (V × T) → Assignment V T → Prop where
  | start : P.Path [] .empty
  | step {path : List (V × T)} {a : Assignment V T} {action : V × T} (h : P.Path path a)
      (next : action ∈ P.actions a) : P.Path (path ++ [action]) (a.result action)

/-- A path leads to an assignment with these values. -/
def LeadsTo (P : Problem V T) (path : List (V × T)) (a : Assignment V T) : Prop :=
  ∃ b, P.Path path b ∧ ∀ v, b.get? v = a.get? v

def Reaches (P : Problem V T) (a : Assignment V T) : Prop := ∃ path, P.LeadsTo path a

/-- The first `k` variables, and no others, have values from their domains, and neighbors go
together. -/
structure IsPartial (P : Problem V T) (k : Nat) (a : Assignment V T) : Prop where
  assigned : ∀ v, v ∈ a ↔ v ∈ P.vars.take k
  within : a.Within P.domain
  consistent : P.Consistent a

section Actions

variable {a b : Assignment V T} {k : Nat}

lemma isPartial_empty (P : Problem V T) : P.IsPartial 0 .empty :=
  ⟨fun _ => iff_of_false nofun nofun, nofun, P.consistent_empty⟩

lemma IsPartial.congr (h : P.IsPartial k a) (hsame : ∀ v, b.get? v = a.get? v) :
    P.IsPartial k b := by
  have hagrees : b.Agrees a := fun v x hx => (hsame v).symm.trans hx
  refine ⟨fun v => ?_, h.within.of_agrees hagrees, h.consistent.of_agrees hagrees⟩
  rw [PartialMap.mem_congr hsame, h.assigned]

/-- The first variable without a value is the next one. -/
lemma find?_open (h : ∀ v, v ∈ a ↔ v ∈ P.vars.take k) :
    (P.vars.find? fun v => !decide (v ∈ a)) = P.vars[k]? := by
  have htaken : (P.vars.take k).find? (fun v => !decide (v ∈ a)) = none := by
    rw [List.find?_eq_none]
    intro v hv
    simpa using (h v).mpr hv
  conv_lhs => rw [← List.take_append_drop k P.vars, List.find?_append, htaken, Option.none_or]
  by_cases hk : k < P.vars.length
  · have hnew : P.vars[k] ∉ a := fun hmem =>
      List.disjoint_take_drop P.vars_nodup (Nat.le_refl k) ((h _).mp hmem)
        (List.drop_eq_getElem_cons hk ▸ List.mem_cons_self)
    rw [List.drop_eq_getElem_cons hk, List.find?_cons_of_pos, List.getElem?_eq_getElem hk]
    simpa using hnew
  · rw [Nat.not_lt] at hk
    rw [List.drop_eq_nil_of_le hk, List.getElem?_eq_none hk, List.find?_nil]

lemma mem_actions_iff {action : V × T} :
    action ∈ P.actions a ↔ (P.vars.find? fun v => !decide (v ∈ a)) = some action.1 ∧
      action.2 ∈ P.domain action.1 ∧ P.conflicts a action.1 action.2 = 0 := by
  obtain ⟨v, x⟩ := action
  rw [actions]
  cases P.vars.find? fun v => !decide (v ∈ a) with
  | none => simp
  | some u =>
    simp only [List.mem_map, List.mem_filter, beq_iff_eq, Prod.mk.injEq, Option.some.injEq]
    constructor
    · rintro ⟨y, hy, rfl, rfl⟩
      exact ⟨rfl, hy⟩
    · rintro ⟨rfl, hx⟩
      exact ⟨x, hx, rfl, rfl⟩

/-- Without its last value a partial solution is one, too. -/
lemma IsPartial.erase (h : P.IsPartial (k + 1) a) {v : V} (hnext : P.vars[k]? = some v) :
    P.IsPartial k (a.erase v) := by
  have hbelow := Assignment.agrees_erase a v
  have htake : P.vars.take (k + 1) = P.vars.take k ++ [v] := by
    rw [List.take_add_one, hnext, Option.toList_some]
  have hnew : v ∉ P.vars.take k := by
    have hnodup := P.vars_nodup.sublist (List.take_sublist (k + 1) P.vars)
    rw [htake, List.nodup_append] at hnodup
    exact fun hv => hnodup.2.2 v hv v (List.mem_singleton_self v) rfl
  refine ⟨fun u => ?_, h.within.of_agrees hbelow, h.consistent.of_agrees hbelow⟩
  rw [PartialMap.mem_erase, h.assigned, htake, List.mem_append, List.mem_singleton]
  constructor
  · rintro ⟨hne, hu | rfl⟩
    · exact hu
    · exact absurd rfl hne
  · intro hu
    refine ⟨?_, Or.inl hu⟩
    rintro rfl
    exact hnew hu

/-- **One step.**  An action extends a partial solution by the next variable. -/
theorem IsPartial.result (hsym : P.Symmetric) (h : P.IsPartial k a) {action : V × T}
    (haction : action ∈ P.actions a) :
    P.vars[k]? = some action.1 ∧ action.1 ∉ a ∧ P.IsPartial (k + 1) (a.result action) := by
  obtain ⟨v, x⟩ := action
  obtain ⟨hfind, hx, hzero⟩ := mem_actions_iff.mp haction
  have hnext : P.vars[k]? = some v := (find?_open h.assigned).symm.trans hfind
  have hopen : v ∉ a := by simpa using List.find?_some hfind
  refine ⟨hnext, hopen, fun u => ?_, h.within.insert hx, h.consistent.insert hsym hzero⟩
  rw [Assignment.result, PartialMap.mem_insert, h.assigned, List.take_add_one, hnext,
    List.mem_append, Option.toList_some, List.mem_singleton, or_comm, eq_comm]

end Actions

section Paths

variable {path path' : List (V × T)} {a b : Assignment V T}

/-- **A whole path** leads to a partial solution and lists its values as they were given. -/
theorem Path.isPartial (hsym : P.Symmetric) (h : P.Path path a) :
    P.IsPartial path.length a ∧ a.entries = path ∧ path.map Prod.fst = P.vars.take path.length := by
  induction h with
  | start => exact ⟨P.isPartial_empty, rfl, rfl⟩
  | @step path a action _ haction ih =>
    obtain ⟨hpartial, hentries, hvars⟩ := ih
    obtain ⟨hnext, hopen, hresult⟩ := hpartial.result hsym haction
    rw [List.length_append, List.length_singleton]
    refine ⟨hresult, ?_, ?_⟩
    · rw [Assignment.result, PartialMap.entries_insert hopen, hentries]
    · rw [List.map_append, List.map_singleton, hvars, List.take_add_one, hnext,
        Option.toList_some]

/-- Assignments with the same values are reached by the same path. -/
lemma Path.unique (hsym : P.Symmetric) (h : P.Path path a) (h' : P.Path path' b)
    (hsame : ∀ v, a.get? v = b.get? v) : path = path' := by
  obtain ⟨hpartial, hentries, hvars⟩ := h.isPartial hsym
  obtain ⟨hpartial', hentries', hvars'⟩ := h'.isPartial hsym
  have hmem : ∀ v, v ∈ path.map Prod.fst ↔ v ∈ path'.map Prod.fst := by
    intro v
    rw [hvars, hvars', ← hpartial.assigned, ← hpartial'.assigned, PartialMap.mem_congr hsame]
  have hkeys : a.keys = path.map Prod.fst := by rw [PartialMap.keys, hentries]
  have hkeys' : b.keys = path'.map Prod.fst := by rw [PartialMap.keys, hentries']
  have hlength : path.length = path'.length := by
    have hnodup : (path.map Prod.fst).Nodup := hkeys ▸ a.nodup_keys
    have hnodup' : (path'.map Prod.fst).Nodup := hkeys' ▸ b.nodup_keys
    simpa using ((List.perm_ext_iff_of_nodup hnodup hnodup').mpr hmem).length_eq
  have hab : a = b := PartialMap.ext_of_keys (by rw [hkeys, hkeys', hvars, hvars', hlength]) hsame
  rw [← hentries, ← hentries', hab]

lemma LeadsTo.unique (hsym : P.Symmetric) (h : P.LeadsTo path a) (h' : P.LeadsTo path' a) :
    path = path' := by
  obtain ⟨b, hb, hvalues⟩ := h
  obtain ⟨b', hb', hvalues'⟩ := h'
  exact hb.unique hsym hb' fun v => (hvalues v).trans (hvalues' v).symm

/-- A partial solution can be built up. -/
lemma IsPartial.reaches {k : Nat} (h : P.IsPartial k a) : P.Reaches a := by
  induction k generalizing a with
  | zero =>
    refine ⟨[], .empty, .start, fun v => ?_⟩
    have hout : v ∉ a := by simp [h.assigned]
    rw [PartialMap.get?_eq_none_iff.mpr hout, PartialMap.get?_empty]
  | succ k ih =>
    cases hnext : P.vars[k]? with
    | none =>
      -- All variables have been assigned before.
      have hall : P.vars.take (k + 1) = P.vars.take k := by
        rw [List.take_add_one, hnext, Option.toList_none, List.append_nil]
      exact ih ⟨hall ▸ h.assigned, h.within, h.consistent⟩
    | some v =>
      have hmem : v ∈ P.vars.take (k + 1) :=
        List.mem_of_getElem? ((List.getElem?_take_of_lt (Nat.lt_succ_self k)).trans hnext)
      obtain ⟨x, hx⟩ := PartialMap.mem_iff_exists.mp ((h.assigned v).mpr hmem)
      have hprev := h.erase hnext
      obtain ⟨path, b, hpath, hvalues⟩ := ih hprev
      have haction : (v, x) ∈ P.actions b := by
        have hfind := find?_open (hprev.congr hvalues).assigned
        refine mem_actions_iff.mpr ⟨hfind.trans hnext, h.within v x hx, ?_⟩
        refine conflicts_eq_zero_iff.mpr fun w hw y hy => h.consistent v w hw x y hx ?_
        exact Assignment.agrees_erase a v w y (hvalues w ▸ hy)
      refine ⟨path ++ [(v, x)], b.insert v x, hpath.step haction, fun u => ?_⟩
      rw [PartialMap.get?_insert, hvalues, PartialMap.get?_erase]
      split
      · rename_i hvu
        rw [← hvu, hx]
      · rfl

/-- **What is reached** are the partial solutions. -/
theorem reaches_iff (hsym : P.Symmetric) : P.Reaches a ↔ ∃ k, P.IsPartial k a := by
  constructor
  · rintro ⟨path, b, hpath, hvalues⟩
    exact ⟨path.length, (hpath.isPartial hsym).1.congr fun v => (hvalues v).symm⟩
  · rintro ⟨k, h⟩
    exact h.reaches

/-! ## Leaves -/

lemma unassigned_eq_nil_iff : P.unassigned a = [] ↔ ∀ v ∈ P.vars, v ∈ a := by
  simp [unassigned]

/-- There is nothing left to do once every variable has a value. -/
lemma actions_eq_nil (h : P.unassigned a = []) : P.actions a = [] := by
  have hnone : P.vars.find? (fun v => !decide (v ∈ a)) = none := by
    simpa using unassigned_eq_nil_iff.mp h
  rw [actions, hnone]

/-- A partial solution that is complete passes the goal test, and the other way round. -/
lemma isPartial_and_complete_iff :
    (∃ k, P.IsPartial k a) ∧ P.unassigned a = [] ↔ P.goalTest a = true ∧ a.Within P.domain := by
  rw [goalTest_iff, unassigned_eq_nil_iff]
  constructor
  · rintro ⟨⟨k, h⟩, hall⟩
    exact ⟨⟨fun v => ⟨fun hv => List.mem_of_mem_take ((h.assigned v).mp hv), hall v⟩,
      h.consistent⟩, h.within⟩
  · rintro ⟨⟨hdecl, hconsistent⟩, hwithin⟩
    refine ⟨⟨P.vars.length, fun v => ?_, hwithin, hconsistent⟩, fun v => (hdecl v).mpr⟩
    rw [List.take_length, hdecl]

end Paths

/-- **The leaves of the tree are the solutions.**  If the order of asking does not matter, then what
is reached and has no actions left, since it is complete, is what passes the goal test with values
from the declared domains, and one path leads there.  On the way the variables are assigned in
their order. -/
theorem treeSearch_exact (hsym : P.Symmetric) :
    (∀ a, P.Reaches a ∧ P.unassigned a = [] ∧ P.actions a = [] ↔
        P.goalTest a = true ∧ a.Within P.domain) ∧
      (∀ path a, P.LeadsTo path a →
        path.map Prod.fst = P.vars.take path.length ∧
          ∀ v, v ∈ a ↔ v ∈ P.vars.take path.length) ∧
      ∀ a, P.goalTest a = true ∧ a.Within P.domain → ∃! path, P.LeadsTo path a := by
  refine ⟨fun a => ?_, ?_, fun a ha => ?_⟩
  · rw [← isPartial_and_complete_iff, reaches_iff hsym]
    exact and_congr_right fun _ => and_iff_left_of_imp actions_eq_nil
  · rintro path a ⟨b, hpath, hvalues⟩
    obtain ⟨hpartial, -, hvars⟩ := hpath.isPartial hsym
    exact ⟨hvars, (hpartial.congr fun v => (hvalues v).symm).assigned⟩
  · obtain ⟨⟨k, hpartial⟩, -⟩ := isPartial_and_complete_iff.mpr ha
    obtain ⟨path, hpath⟩ := hpartial.reaches
    exact ⟨path, hpath, fun path' hpath' => hpath'.unique hsym hpath⟩

/-- One is less than two, whichever of the two variables got its value first. -/
theorem treeSearch_exact_ascending :
    let P := ascending [1, 2, 3] [2, 3]
    let a : Assignment Bool Nat := .ofList [(true, 2), (false, 1)]
    P.Symmetric ∧ P.goalTest a = true ∧ a.Within P.domain ∧ P.actions a = [] ∧
      ∃! path, P.LeadsTo path a := by
  intro P a
  have hsym : P.Symmetric := symmetric_ascending _ _
  have hgoal : P.goalTest a = true := by decide
  have hwithin : a.Within P.domain := by
    rintro (_ | _) x ⟨⟩
    · decide
    · decide
  obtain ⟨hleaves, -, hone⟩ := treeSearch_exact hsym
  exact ⟨hsym, hgoal, hwithin, ((hleaves a).mpr ⟨hgoal, hwithin⟩).2.2, hone a ⟨hgoal, hwithin⟩⟩

end Problem

end BinaryCsp
