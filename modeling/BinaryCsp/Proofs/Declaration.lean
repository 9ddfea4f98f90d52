import BinaryCsp.Problem
import Mathlib.Tactic.Common

/-!
# Declarations that are accepted

`Problem.build_eq_ok`: a declaration with one domain for each variable, and with neighbor lists that
stay within the variables, avoid their owners and answer each other, is accepted, and the problem
has exactly what was declared.
-/

namespace BinaryCsp

namespace PartialMap

variable {K A : Type} [DecidableEq K]

/-- Entries with different keys are taken over as they stand. -/
lemma entries_ofList {es : List (K × A)} (h : (es.map Prod.fst).Nodup) :
    (ofList es).entries = es := by
  -- The keys still to come are new to what has been read already.
  have hfold : ∀ m : PartialMap K A, ((m.entries ++ es).map Prod.fst).Nodup →
      (es.foldl (fun m e => m.insert e.1 e.2) m).entries = m.entries ++ es := by
    clear h
    induction es with
    | nil => simp
    | cons e es ih =>
      intro m hm
      have hnew : e.1 ∉ m.entries.map Prod.fst := by
        rw [List.map_append, List.nodup_append] at hm
        intro he
        exact hm.2.2 e.1 he e.1 (by simp) rfl
      have hinsert : (m.insert e.1 e.2).entries = m.entries ++ [e] := entries_insert hnew e.2
      have hassoc : (m.insert e.1 e.2).entries ++ es = m.entries ++ e :: es := by
        rw [hinsert, List.append_assoc]
        rfl
      rw [List.foldl_cons, ih (m.insert e.1 e.2) (by rw [hassoc]; exact hm), hassoc]
  exact hfold empty h

lemma get?_ofList {es : List (K × A)} (h : (es.map Prod.fst).Nodup) {k : K} {a : A} :
    (ofList es).get? k = some a ↔ (k, a) ∈ es := by
  rw [get?_eq_some_iff, entries_ofList h]

lemma keys_ofList {es : List (K × A)} (h : (es.map Prod.fst).Nodup) :
    (ofList es).keys = es.map Prod.fst := by
  rw [keys, entries_ofList h]

end PartialMap

namespace Problem

variable {V T : Type} [DecidableEq V]

lemma eraseDups_of_nodup {l : List V} (h : l.Nodup) : l.eraseDups = l := by
  induction l with
  | nil => rfl
  | cons v l ih =>
    obtain ⟨hv, hl⟩ := List.nodup_cons.mp h
    have hkeep : (l.filter fun w => !w == v) = l := by
      rw [List.filter_eq_self]
      intro w hw
      have hne : w ≠ v := fun heq => hv (heq ▸ hw)
      simpa using hne
    rw [List.eraseDups_cons, hkeep, ih hl]

/-- The graph lists for every variable the neighbors that are declared for it, if neighbors are
declared for the listed variables only. -/
lemma listAt_graph {vars : List V} (hnd : vars.Nodup) {neighbors : List (V × List V)}
    (howners : ∀ e ∈ neighbors, e.1 ∈ vars) (v : V) :
    (PartialMap.tabulate vars hnd (joined neighbors)).listAt v = joined neighbors v := by
  rw [PartialMap.listAt_tabulate]
  split
  · rfl
  · rename_i hv
    rw [eq_comm, List.eq_nil_iff_forall_not_mem]
    intro w hw
    obtain ⟨e, he, rfl, -⟩ := mem_joined.mp hw
    exact hv (howners e he)

section Building

variable [LE V] [DecidableLE V]

/-- **A declaration in order is accepted** and gives the problem that it describes. -/
theorem build_eq_ok {given vars : List V} {domains : List (V × List T)}
    {neighbors : List (V × List V)} (constraint : Constraint V T)
    (hvars : declared given (PartialMap.ofList domains) = vars) (hnd : vars.Nodup)
    (hdomains : ∀ v, v ∈ PartialMap.ofList domains ↔ v ∈ vars)
    (hlists : ∀ e ∈ neighbors, e.1 ∈ vars ∧ ∀ w ∈ e.2, w ≠ e.1 ∧ w ∈ vars)
    (hsymm : ∀ v w, w ∈ joined neighbors v → v ∈ joined neighbors w) :
    ∃ P, build given domains neighbors constraint = .ok P ∧ P.vars = vars ∧
      P.baseline = PartialMap.ofList domains ∧ P.constraint = constraint ∧
      ∀ v, P.neighbors v = joined neighbors v := by
  subst hvars
  have hgraph := listAt_graph hnd fun e he => (hlists e he).1
  have hfault : declarationFault (PartialMap.ofList domains) []
      (declared given (PartialMap.ofList domains)) = none :=
    declarationFault_eq_none_iff.mpr
      ⟨hnd, fun v hv => ⟨List.not_mem_nil, (hdomains v).mpr hv⟩⟩
  have hstray : strayFault (PartialMap.ofList domains)
      (declared given (PartialMap.ofList domains)) = none :=
    strayFault_eq_none_iff.mpr fun v hv => (hdomains v).mp hv
  have hentries : (entriesFault (declared given (PartialMap.ofList domains)) neighbors :
      Option (Fault V T)) = none :=
    entriesFault_eq_none_iff.mpr hlists
  have hasym : asymmetry (declared given (PartialMap.ofList domains))
      (PartialMap.tabulate (declared given (PartialMap.ofList domains)) hnd
        (joined neighbors)) = none := by
    rw [asymmetry_eq_none_iff]
    intro v _ w hw
    rw [hgraph] at hw ⊢
    exact hsymm v w hw
  simp only [build]
  split
  · rename_i f hf
    exact absurd (hfault.symm.trans hf) nofun
  · split
    · rename_i f hf
      exact absurd (hstray.symm.trans hf) nofun
    · split
      · rename_i f hf
        exact absurd (hentries.symm.trans hf) nofun
      · split
        · rename_i hf
          exact absurd (hasym.symm.trans hf) nofun
        · exact ⟨_, rfl, rfl, rfl, rfl, hgraph⟩

/-- Variables that are given in the order of their domains are declared in this order. -/
lemma declared_fst (domains : List (V × List T)) :
    declared (domains.map Prod.fst) (PartialMap.ofList domains) = domains.map Prod.fst := by
  cases domains with
  | nil => simp [declared, PartialMap.ofList, PartialMap.keys, PartialMap.empty]
  | cons e es => rfl

end Building

end Problem

end BinaryCsp
