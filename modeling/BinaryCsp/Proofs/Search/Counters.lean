import BinaryCsp.Proofs.Search.BuiltIn
import BinaryCsp.Proofs.Search.Step

/-!
# Who counts what

A search counts its own steps: the nodes where it picks a variable, the values it assigns, and the
values it takes back.  Its parts leave these counters alone (`Backtracking.LeavesCounts`):
orderings draw random numbers at most, and inferences count what they check and rule out.  This
holds of every combination of options (`Options.leavesCounts_backtracking`).

So the trial of a value, whatever follows from it, counts as one assignment (`Tried.counted`).
-/

namespace BinaryCsp

variable {V T σ : Type} [DecidableEq V] {P : Problem V T}

/-- Two worlds agree on the steps of a search: its assignments, its nodes, and its backtracks. -/
structure World.CountsAgree (w w' : World V T σ) : Prop where
  assigns : w'.state.assigns = w.state.assigns
  assignments : w'.context.stats.assignments = w.context.stats.assignments
  nodes : w'.context.stats.nodesVisited = w.context.stats.nodesVisited
  backtracks : w'.context.stats.backtracks = w.context.stats.backtracks

section Agree

omit [DecidableEq V]

variable {w w' w'' : World V T σ}

lemma World.CountsAgree.refl (w : World V T σ) : w.CountsAgree w := ⟨rfl, rfl, rfl, rfl⟩

lemma World.CountsAgree.trans (h : w.CountsAgree w') (h' : w'.CountsAgree w'') :
    w.CountsAgree w'' :=
  ⟨h'.assigns.trans h.assigns, h'.assignments.trans h.assignments, h'.nodes.trans h.nodes,
    h'.backtracks.trans h.backtracks⟩

end Agree

/-! ## Inferences -/

namespace Inference

/-- An inference takes no part in the counting of steps. -/
def LeavesCounts (rule : Inference P σ) : Prop :=
  ∀ v x a (t : Trial V T σ), t.toWorld.CountsAgree (rule.infer v x a t).2.toWorld

lemma leavesCounts_none : (Inference.none P : Inference P σ).LeavesCounts :=
  fun _ _ _ _ => .refl _

lemma countsAgree_narrowAll (v : V) (x : T) (ws : List V) (t : Trial V T σ) :
    t.toWorld.CountsAgree (narrowAll P v x ws t).2.toWorld := by
  induction ws generalizing t with
  | nil => exact .refl _
  | cons w ws ih =>
    have hnarrow : t.toWorld.CountsAgree (narrow P v x w t).toWorld := ⟨rfl, rfl, rfl, rfl⟩
    rw [narrowAll]
    split
    · exact hnarrow
    · exact hnarrow.trans (ih _)

lemma leavesCounts_forwardChecking : (forwardChecking P : Inference P σ).LeavesCounts := by
  intro v x a t
  have hmade : t.toWorld.CountsAgree { t.toWorld with state := t.state.materialize P } :=
    ⟨rfl, rfl, rfl, rfl⟩
  simp only [forwardChecking]
  split
  · exact hmade
  · exact hmade.trans (countsAgree_narrowAll v x _ { t with state := t.state.materialize P })

lemma leavesCounts_arcConsistency [DecidableEq T] (how : Propagator V T) :
    (arcConsistency P how : Inference P σ).LeavesCounts := by
  intro v x a t
  simp only [arcConsistency]
  split
  · exact .refl _
  · split
    · exact ⟨rfl, rfl, rfl, rfl⟩
    · exact ⟨rfl, rfl, rfl, rfl⟩

lemma BuiltIn.leavesCounts [DecidableEq T] {rule : Inference P σ} (h : rule.BuiltIn) :
    rule.LeavesCounts := by
  cases h with
  | none => exact leavesCounts_none
  | forwardChecking => exact leavesCounts_forwardChecking
  | arcConsistency how => exact leavesCounts_arcConsistency how

end Inference

/-! ## All parts together -/

/-- The parts of a search leave the counting of its steps to the search. -/
structure Backtracking.LeavesCounts (S : Backtracking P σ) : Prop where
  selects : ∀ s a c, (S.variableOrdering.select s a c).2.stats = c.stats
  orders : ∀ s a v c, (S.valueOrdering.order s a v c).2.stats = c.stats
  infers : S.inference.LeavesCounts

/-- **Every combination of options leaves the counting to the search.** -/
theorem Options.leavesCounts_backtracking [DecidableEq T] (o : Options) (P : Problem V T) :
    (o.backtracking P : Backtracking P σ).LeavesCounts where
  selects s a c := by
    simp only [backtracking]
    cases o.variableOrdering <;> rfl
  orders s a v c := by
    simp only [backtracking]
    cases o.valueOrdering <;> rfl
  infers := (o.builtIn_inference P).leavesCounts

/-! ## Steps -/

section Steps

variable {S : Backtracking P σ} (hS : S.LeavesCounts)
include hS

/-- Picking a variable and ordering its values counts nothing. -/
lemma Backtracking.stats_of_branch {a : Assignment V T} {stack : Stack P a} {s : State V T}
    {c : Context σ} {q : Point P} {w : World V T σ} (h : S.branch stack s c = .moves q w) :
    w.context.stats = c.stats := by
  have hselects := hS.selects s a c
  rw [branch] at h
  split at h
  · cases h
  · cases h
  · rename_i v c' hselect
    have horders := hS.orders s a v.val c'
    rw [hselect] at hselects
    split at h
    · cases h
    · rename_i horder
      rw [horder] at horders
      cases h
      exact horders.trans hselects

/-- **A trial counts as one assignment**, and as nothing else. -/
lemma Tried.counted [DecidableEq T] {a : Assignment V T} {v : P.Open a} {x : T} {w : World V T σ}
    {verdict : Verdict} {t : Trial V T σ} (h : Tried S v x w verdict t) :
    World.CountsAgree { w with state := w.state.countAssign } t.toWorld := by
  obtain ⟨trail, s, hsuppose, hinfer⟩ := h.inferred
  have hsupposed :
      World.CountsAgree { w with state := w.state.countAssign } { w with state := s } := by
    refine ⟨?_, rfl, rfl, rfl⟩
    rcases State.suppose_cases P w.state.countAssign v.val x with ⟨-, -, heq⟩ | ⟨f, heq⟩
    · cases heq.symm.trans hsuppose
      rfl
    · cases heq.symm.trans hsuppose
  have hinferred := hS.infers v.val x (a.insert v.val x) ⟨{ w with state := s }, trail⟩
  rw [hinfer] at hinferred
  exact hsupposed.trans hinferred

end Steps

end BinaryCsp
