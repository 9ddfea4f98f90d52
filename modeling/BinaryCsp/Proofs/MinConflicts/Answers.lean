import BinaryCsp.Proofs.MinConflicts.Checks
import BinaryCsp.Proofs.MinConflicts.Steps
import BinaryCsp.Proofs.Search.Restoration

/-!
# What the answers of min-conflicts say

Min-conflicts proves little, but what it says is so.  A solution is one from the declared domains,
and it is only reported when no variable is conflicted; that the predicate may answer differently in
the two orders does no harm, since the conflicts of every variable are counted from its own side.
That there is no solution is said for one reason only, an empty domain, which stops the first loop
(`run_cases`).

The final test of a solution (`Problem.goalTest`) therefore never fails, and since no question of
the search is refused either (`run?_eq_ok`), every search has an answer (`answers_are_right`).
-/

namespace BinaryCsp

variable {V T σ : Type} [DecidableEq V]

namespace MinConflicts

/-- **What a run comes to**: an empty domain, or as many values given as there are variables and
moves, and then a solution or no proof. -/
theorem run_cases (m : MinConflicts) (P : Problem V T) (w : World V T σ) :
    ∃ outcome w' given moved, m.run P w = (outcome, w') ∧ moved ≤ m.maxSteps ∧
      w.Counted w' given moved ∧
      ((outcome = .unsatisfiable ∧ ∃ v ∈ P.vars, P.domain v = []) ∨
        (∀ v ∈ P.vars, P.domain v ≠ []) ∧ given = P.vars.length + moved ∧
          (outcome = .budgetExhausted ∨
            ∃ b, outcome = .solved b ∧ P.IsSolution P.domain b)) := by
  rw [run]
  rcases greedy_cases P P.vars .empty w with
    ⟨w', heq, hempty, given, hcounted⟩ | ⟨a, w₁, heq, hne, -, -, hcounted⟩
  · rw [heq]
    exact ⟨.unsatisfiable, w', given, 0, rfl, Nat.zero_le _, hcounted, Or.inl ⟨rfl, hempty⟩⟩
  · rw [heq]
    obtain ⟨outcome, w', moved, hclimb, hle, hclimbed, hend⟩ :=
      climb_cases m.maxSteps (isComplete_of_greedy heq) w₁
    have hall : w.Counted w' (P.vars.length + moved) moved := by
      simpa using hcounted.trans hclimbed
    refine ⟨outcome, w', _, moved, hclimb, hle, hall, Or.inr ⟨hne, rfl, hend.imp id ?_⟩⟩
    rintro ⟨b, hsolved, hcomplete', hrest⟩
    exact ⟨b, hsolved, hcomplete'.isSolution hrest⟩

/-- **The answers of min-conflicts are right.**  Whatever the predicate, the generator, the limit
and the number of steps, the search has an outcome, and no question that it asks on its way is
refused.  The outcome is that there is no solution exactly if a declared variable has an empty
domain.  If it is an assignment, then that passes the goal test and is a solution from the declared
domains.  The current domains are left alone, there are no more steps than allowed, and unless a
domain is empty there is one assignment for each variable and for each step. -/
theorem answers_are_right (m : MinConflicts) (P : Problem V T) (w : World V T σ) :
    ∃ outcome w' moved, (m.toStrategy P).solve w = (.ok outcome, w') ∧
      m.run? P w = .ok (m.run P w) ∧
      (outcome = .unsatisfiable ↔ ∃ v ∈ P.vars, P.domain v = []) ∧
      (∀ b, outcome = .solved b → P.goalTest b = true ∧ P.IsSolution P.domain b) ∧
      w'.state.current = w.state.current ∧
      w'.context.stats.minConflictsSteps = w.context.stats.minConflictsSteps + moved ∧
      moved ≤ m.maxSteps ∧
      (outcome ≠ .unsatisfiable → w'.context.stats.assignments
        = w.context.stats.assignments + (P.vars.length + moved)) := by
  obtain ⟨outcome, w', given, moved, hrun, hle, hcounted, hend⟩ := m.run_cases P w
  have hsolution : ∀ b, outcome = .solved b → P.goalTest b = true ∧ P.IsSolution P.domain b := by
    rintro b rfl
    rcases hend with ⟨hno, -⟩ | ⟨-, -, hno | ⟨b', hb', hsolution⟩⟩
    · cases hno
    · cases hno
    · cases hb'
      exact ⟨(Problem.goalTest_and_within_iff.mpr hsolution).1, hsolution⟩
  have hsolve : (m.toStrategy P).solve w = conclude P "min-conflicts" w.state.assigns
      (.ok (m.run P w).1, (m.run P w).2) := rfl
  rw [hrun, conclude_of_passes _ _ fun b hb => (hsolution b hb).1] at hsolve
  refine ⟨outcome, _, moved, hsolve, m.run?_eq_ok w, ?_, hsolution, hcounted.current, ?_, hle, ?_⟩
  · rcases hend with ⟨hno, hempty⟩ | ⟨hne, -, hend⟩
    · exact iff_of_true hno hempty
    · refine iff_of_false ?_ fun ⟨v, hv, hnil⟩ => hne v hv hnil
      rcases hend with rfl | ⟨b, rfl, -⟩ <;> exact nofun
  · exact congrArg Stats.minConflictsSteps hcounted.stats
  · intro hanswer
    rcases hend with ⟨hno, -⟩ | ⟨-, hgiven, -⟩
    · exact absurd hno hanswer
    · have hbefore : w'.context.stats.assignments = w.context.stats.assignments := by
        rw [hcounted.stats]
      have hmade : w'.state.assigns - w.state.assigns = P.vars.length + moved := by
        rw [hcounted.assigns, Nat.add_sub_cancel_left, hgiven]
      exact congrArg₂ (· + ·) hbefore hmade

end MinConflicts

end BinaryCsp
