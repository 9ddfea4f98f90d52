import BinaryCsp.Proofs.Limit.Search
import BinaryCsp.Search.MinConflicts

/-!
# Budgets as thresholds

Backtracking asks its limit as its steps do, and min-conflicts asks once before each move.  When
they are told to stop they answer that the budget is exhausted, and that is all a limit can do to
them.  So for each run without a limit there is a number, how often it asks, at which budgets begin
to suffice: a budget of so many decisions or more leaves the run as it is, down to the counters and
the state of the generator, and with a smaller one there is no answer
(`Strategy.BuiltIn.budget_is_threshold`).

Min-conflicts also answers that the budget is exhausted when it runs out of steps.
-/

namespace BinaryCsp

open Limited (limit under decided)

variable {V T σ : Type} [DecidableEq V] {P : Problem V T}

/-- An answer that leaves the question open. -/
def Ending.GaveUp (ending : Ending V T σ) : Prop := ending.1 = .ok .budgetExhausted

lemma handsOn_conclude (search : String) (before : Nat) :
    HandsOn (conclude P search before : Ending V T σ → _) := by
  refine HandsOn.of_answers fun answer => ?_
  rcases answer with f | outcome
  · exact ⟨fun _ _ => rfl, fun _ => rfl⟩
  · cases outcome with
    | solved b =>
      refine ⟨fun w l => ?_, fun w => ?_⟩ <;> simp only [conclude]
      · split <;> rfl
      · split <;> exact funext fun kind => by cases kind <;> rfl
    | unsatisfiable => exact ⟨fun _ _ => rfl, fun _ => funext fun kind => by cases kind <;> rfl⟩
    | budgetExhausted => exact ⟨fun _ _ => rfl, fun _ => funext fun kind => by cases kind <;> rfl⟩

lemma gaveUp_conclude {search : String} {before : Nat} {ending : Ending V T σ}
    (h : ending.GaveUp) : (conclude P search before ending).GaveUp := by
  rcases ending with ⟨answer, w⟩
  obtain rfl : answer = .ok .budgetExhausted := h
  rfl

/-! ## Backtracking -/

section Backtracking

variable [DecidableEq T]

/-- **A search from choices that list no value twice gives up when it is told to stop.** -/
theorem Backtracking.exists_polls_solve {S : Backtracking P σ} (hS : S.Sound)
    (hanswers : S.inference.Answers) (hpolls : S.Polls) (w : World V T σ)
    (hnd : ∀ v, (w.state.choices P v).Nodup) :
    ∃ k, BinaryCsp.Polls Ending.GaveUp (decided w) (fun l => S.toStrategy.solve (under w l)) k := by
  obtain ⟨k, hrun⟩ := Backtracking.exists_polls_run hpolls (.node .bottom) w
  have hgaveUp : BinaryCsp.Polls Ending.GaveUp (decided w) (fun l => S.search (under w l)) k :=
    hrun.imp fun l hstopped => hstopped (answered_run hnd hS hanswers fun v => .refl _)
  exact ⟨k, hgaveUp.map (handsOn_conclude "backtracking search" w.state.assigns)
    fun _ => gaveUp_conclude⟩

/-- Without a limit it never gives up. -/
lemma Backtracking.not_gaveUp_solve {S : Backtracking P σ} (hS : S.Sound) {w : World V T σ}
    (hlimit : w.context.limit = .never) (hnd : ∀ v, (w.state.choices P v).Nodup) :
    ¬ (S.toStrategy.solve w).GaveUp := by
  intro hgaveUp
  have hsame : (S.search w).1 = .ok .budgetExhausted := by
    rcases conclude_cases (P := P) "backtracking search" w.state.assigns (S.search w) with
      hsame | ⟨-, hfault⟩
    · exact hsame.symm.trans hgaveUp
    · cases hfault.symm.trans hgaveUp
  have horder : (Point.node (Stack.bottom : Stack P _)).InOrder (w.state.choices P) w :=
    ⟨hlimit, fun v => .refl _⟩
  rcases run_cases hS hnd horder with ⟨b, w', hrun, -⟩ | ⟨w', hrun, -⟩
  · cases hsame.symm.trans (congrArg Prod.fst hrun)
  · cases hsame.symm.trans (congrArg Prod.fst hrun)

end Backtracking

/-! ## Min-conflicts -/

namespace MinConflicts

variable (P)

lemma handsOn_settle (v : V) (a : Assignment V T) :
    HandsOn (settle P v a : World V T σ → _) := by
  have hchoose : HandsOn fun w : World V T σ =>
      w.context.chooseLeast (P.clashes v (P.assignedNeighbors a v)) (P.domain v) :=
    ⟨fun _ _ => rfl, fun _ => rfl⟩
  refine ⟨fun w l => ?_, fun w => ?_⟩
  · have hunder := hchoose.under_eq w l
    simp only [settle]
    rw [hunder]
    rcases w.context.chooseLeast (P.clashes v (P.assignedNeighbors a v)) (P.domain v) with
      ⟨_ | x, c⟩
    · rfl
    · rfl
  · have hdecided := hchoose.decided_eq w
    simp only [settle]
    rcases hpicked : w.context.chooseLeast (P.clashes v (P.assignedNeighbors a v)) (P.domain v)
      with ⟨_ | x, c⟩ <;> rw [hpicked] at hdecided
    · exact hdecided
    · exact hdecided

lemma handsOn_greedy (vs : List V) (a : Assignment V T) :
    HandsOn (greedy P vs a : World V T σ → _) := by
  induction vs generalizing a with
  | nil => exact ⟨fun _ _ => rfl, fun _ => rfl⟩
  | cons v vs ih =>
    have hsettle := handsOn_settle P (σ := σ) v a
    refine ⟨fun w l => ?_, fun w => ?_⟩
    · rw [greedy, greedy, hsettle.under_eq]
      rcases settle P v a w with ⟨_ | b, w'⟩
      · rfl
      · exact (ih b).under_eq w' l
    · have hdecided := hsettle.decided_eq w
      rw [greedy]
      rcases hsettled : settle P v a w with ⟨_ | b, w'⟩ <;> rw [hsettled] at hdecided
      · exact hdecided
      · exact ((ih b).decided_eq w').trans hdecided

/-- A move asks nothing. -/
lemma move_under (a : Assignment V T) (w : World V T σ) (l : Limit) :
    move P a (under w l) = under (move P a w) l := by
  have hchoose : (under w l).context.choose (P.conflicted a)
      = under (w.context.choose (P.conflicted a)) l := rfl
  rw [move, move, hchoose]
  rcases w.context.choose (P.conflicted a) with ⟨_ | v, c⟩
  · rfl
  · have hsettle := (handsOn_settle P v a).under_eq { w with context := c } l
    exact congrArg (fun r : Option (Assignment V T) × World V T σ =>
      (some (r.1.getD a), countStep r.2)) hsettle

/-- It is one decision. -/
lemma decided_move_le (a : Assignment V T) (w : World V T σ) (kind : Decision) :
    decided (move P a w) kind ≤ decided w kind + 1 := by
  have hchoose : decided (w.context.choose (P.conflicted a)) = decided w := rfl
  rw [move]
  rcases hpicked : w.context.choose (P.conflicted a) with ⟨_ | v, c⟩ <;> rw [hpicked] at hchoose
  · exact Nat.le_succ_of_le (Nat.le_of_eq (congrFun hchoose kind))
  · have hsettle : decided (settle P v a { w with context := c }) = decided w :=
      ((handsOn_settle P v a).decided_eq _).trans hchoose
    rw [← hsettle]
    cases kind with
    | node => exact Nat.le_succ _
    | move => exact Nat.le_refl _

/-- What comes of a move of a climb that has so many steps left. -/
def resume (steps : Nat) (a : Assignment V T) :
    Option (Assignment V T) × World V T σ → Outcome V T × World V T σ
  | (none, w) => (.solved a, w)
  | (some a, w) => climb P steps a w

/-- **Min-conflicts asks once before each move.** -/
theorem exists_polls_climb (steps : Nat) (a : Assignment V T) (w : World V T σ) :
    ∃ k, Polls (fun r : Outcome V T × World V T σ => r.1 = .budgetExhausted) (decided w)
      (fun l => climb P steps a (under w l)) k := by
  induction steps generalizing a w with
  | zero => exact ⟨0, polls_zero (fun _ => rfl) fun _ => Nat.le_refl _⟩
  | succ steps ih =>
    obtain ⟨k, hrest⟩ : ∃ k, Polls (fun r : Outcome V T × World V T σ => r.1 = .budgetExhausted)
        (fun kind => decided w kind + 1) (fun l => resume P steps a (under (move P a w) l)) k := by
      have hmove := decided_move_le P a w
      rcases hmoved : move P a w with ⟨_ | b, w'⟩ <;> rw [hmoved] at hmove
      · exact ⟨0, polls_zero (fun _ => rfl) hmove⟩
      · exact (ih b w').imp fun k hk => hk.of_le hmove
    refine ⟨1 + k, ?_⟩
    convert polls_ask (fun l => (.budgetExhausted, under w l)) _
      (fun l => ⟨rfl, rfl, fun _ => Nat.le_refl _⟩) hrest using 2 with l
    rw [climb, ← move_under]
    simp only [Context.poll]
    rw [show (under w l).context.limit = l from rfl]
    cases l.poll.1 <;> rfl

/-- **Min-conflicts gives up when it is told to stop.** -/
theorem exists_polls_solve (m : MinConflicts) (w : World V T σ) :
    ∃ k, Polls Ending.GaveUp (decided w) (fun l => (m.toStrategy P).solve (under w l)) k := by
  obtain ⟨k, hrun⟩ : ∃ k, Polls (fun r : Outcome V T × World V T σ => r.1 = .budgetExhausted)
      (decided w) (fun l => m.run P (under w l)) k := by
    have hgreedy := handsOn_greedy P (σ := σ) P.vars .empty
    have hdecided := hgreedy.decided_eq w
    simp only [run, hgreedy.under_eq]
    rcases hstart : greedy P P.vars .empty w with ⟨_ | a, w'⟩ <;> rw [hstart] at hdecided <;>
      have hle : ∀ kind, decided w' kind ≤ decided w kind :=
        fun kind => Nat.le_of_eq (congrFun hdecided kind)
    · exact ⟨0, polls_zero (fun _ => rfl) hle⟩
    · exact (exists_polls_climb P m.maxSteps a w').imp fun k hk => hk.of_le hle
  have hconclude := handsOn_conclude (P := P) (σ := σ) "min-conflicts" w.state.assigns
  have hanswer : HandsOn fun r : Outcome V T × World V T σ =>
      conclude P "min-conflicts" w.state.assigns (.ok r.1, r.2) :=
    ⟨fun r l => hconclude.under_eq (.ok r.1, r.2) l, fun r => hconclude.decided_eq (.ok r.1, r.2)⟩
  exact ⟨k, hrun.map hanswer fun r hr => gaveUp_conclude (congrArg Except.ok hr)⟩

end MinConflicts

/-! ## The threshold -/

/-- The strategies of the library. -/
inductive Strategy.BuiltIn [DecidableEq T] (P : Problem V T) : Strategy V T σ → Prop where
  | backtracking (o : Options) : BuiltIn P (o.backtracking P).toStrategy
  | minConflicts (m : MinConflicts) : BuiltIn P (m.toStrategy P)

/-- The same world under another limit. -/
def World.withLimit (w : World V T σ) (l : Limit) : World V T σ :=
  { w with context := { w.context with limit := l } }

variable [DecidableEq T]

lemma Strategy.BuiltIn.exists_polls {strategy : Strategy V T σ} (h : strategy.BuiltIn P)
    (w : World V T σ) (hnd : ∀ v, (w.state.choices P v).Nodup) :
    ∃ k, Polls Ending.GaveUp (decided w) (fun l => strategy.solve (w.withLimit l)) k := by
  cases h with
  | backtracking o =>
    exact Backtracking.exists_polls_solve (o.sound_backtracking P) (o.answers_inference P)
      (o.polls_backtracking P) w hnd
  | minConflicts m => exact m.exists_polls_solve P w

/-- **A budget of decisions is a threshold.**  For a run of a built-in strategy, from choices that
list no value twice, there is a number of polls.  A clock that stands still, and so stops nothing,
counts them.  With a budget of at least so many decisions the run has the same answer, and leaves
the same problem, counters and generator, as without a limit.  With a smaller budget of `n` it gives
up; the poll that says stop is number `n + 1`, and there is none after it.  Backtracking gives up
only if there is such a poll.  In any case no more nodes are visited, and no more moves made, than
the budget allows. -/
theorem Strategy.BuiltIn.budget_is_threshold {strategy : Strategy V T σ} (h : strategy.BuiltIn P)
    (w : World V T σ) (hnd : ∀ v, (w.state.choices P v).Nodup) :
    let free := strategy.solve (w.withLimit .never)
    let run (n : Nat) := strategy.solve (w.withLimit (.decisions n 0))
    ∃ polls,
      strategy.solve (w.withLimit (.time .still 1 0)) =
          (free.1, free.2.withLimit (.time .still 1 polls)) ∧
        ∀ n,
          (polls ≤ n → run n = (free.1, free.2.withLimit (.decisions n polls))) ∧
          (n < polls → (run n).1 = .ok .budgetExhausted ∧
            (run n).2.context.limit = .decisions n (n + 1)) ∧
          ((∃ o : Options, strategy = (o.backtracking P).toStrategy) →
            (run n).1 = .ok .budgetExhausted → n < polls) ∧
          (run n).2.context.stats.nodesVisited ≤ w.context.stats.nodesVisited + n ∧
          (run n).2.context.stats.minConflictsSteps ≤ w.context.stats.minConflictsSteps + n := by
  intro free run
  obtain ⟨polls, hpolls⟩ := h.exists_polls w hnd
  refine ⟨polls, hpolls.still, fun n => ⟨hpolls.of_budget_le, hpolls.of_budget_lt, ?_,
    hpolls.decided_le_budget n .node, hpolls.decided_le_budget n .move⟩⟩
  rintro ⟨o, rfl⟩ hgaveUp
  by_contra hn
  have hfree : run n = (free.1, free.2.withLimit (.decisions n polls)) :=
    hpolls.of_budget_le (Nat.le_of_not_lt hn)
  rw [hfree] at hgaveUp
  exact Backtracking.not_gaveUp_solve (o.sound_backtracking P) (w := w.withLimit .never) rfl hnd
    hgaveUp

/-- Two numbers in ascending order are found with two decisions, and not with one. -/
theorem Strategy.BuiltIn.budget_is_threshold_ascending :
    let P := Problem.ascending [1, 2, 3] [2, 3]
    let w : World Bool Nat Unit := ⟨.initial, .seeded 0 ()⟩
    let strategy : Strategy Bool Nat Unit := (Options.standard.backtracking P).toStrategy
    let free := strategy.solve (w.withLimit .never)
    strategy.BuiltIn P ∧ (∀ v, (w.state.choices P v).Nodup) ∧
      (strategy.solve (w.withLimit (.decisions 1 0))).1 = .ok .budgetExhausted ∧
      strategy.solve (w.withLimit (.decisions 2 0)) =
        (free.1, free.2.withLimit (.decisions 2 2)) := by
  intro P w strategy free
  have hbuiltIn : strategy.BuiltIn P := .backtracking .standard
  have hnd : ∀ v, (w.state.choices P v).Nodup := by decide
  obtain ⟨polls, hcounted, hbudget⟩ := Strategy.BuiltIn.budget_is_threshold hbuiltIn w hnd
  have hlimit : (strategy.solve (w.withLimit (.time .still 1 0))).2.context.limit
      = .time .still 1 2 := by
    refine ((handsOn_conclude (P := P) _ _).limit_eq _).trans ?_
    -- it asks before each variable, and is done after the second
    rw [Backtracking.search, Backtracking.run_of_moves rfl, Backtracking.run_of_moves rfl,
      Backtracking.run_of_moves rfl, Backtracking.run_of_moves rfl, Backtracking.run_of_ends rfl]
    rfl
  obtain rfl : polls = 2 := by
    rw [hcounted] at hlimit
    exact (Limit.time.inj hlimit).2.2
  exact ⟨hbuiltIn, hnd, ((hbudget 1).2.1 (by decide)).1, (hbudget 2).1 (by decide)⟩

end BinaryCsp
