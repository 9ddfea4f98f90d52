import BinaryCsp.Proofs.Limit.Propagation
import BinaryCsp.Proofs.Search.Safety

/-!
# How often a search asks

A search asks its limit at each node that is not complete, and lets the inference ask for each value
it tries.  Everything else it does hands the limit on: orderings, suppositions, undoing a frame, and
what is made of a verdict (`Backtracking.judge`).  So a step asks a certain number of times, and
when it is told to stop it ends (`Backtracking.exists_polls_step`); a search adds up the polls of
its steps (`Backtracking.exists_polls_run`).
-/

namespace BinaryCsp

open Limited (limit under decided)

variable {V T σ : Type} [DecidableEq V] {P : Problem V T}

instance : Limited (Next P σ) where
  limit
    | .moves _ w => limit w
    | .ends ending => limit ending
  under
    | .moves q w, l => .moves q (under w l)
    | .ends ending, l => .ends (under ending l)
  decided
    | .moves _ w => decided w
    | .ends ending => decided ending
  under_limit next := by cases next <;> rfl
  limit_under next _ := by cases next <;> rfl
  under_under next _ _ := by cases next <;> rfl
  decided_under next _ := by cases next <;> rfl

/-! ## Parts that never ask -/

/-- Orderings and an inference that ask, if at all, to be stopped. -/
structure Backtracking.Polls (S : Backtracking P σ) : Prop where
  selects : ∀ s a, HandsOn (S.variableOrdering.select s a)
  orders : ∀ s a v, HandsOn (S.valueOrdering.order s a v)
  infers : S.inference.Polls

/-- **The parts of every combination of options ask, if at all, to be stopped.** -/
theorem Options.polls_backtracking [DecidableEq T] (o : Options) (P : Problem V T) :
    (o.backtracking P : Backtracking P σ).Polls where
  selects s a := by
    simp only [backtracking]
    cases o.variableOrdering with
    | firstUnassigned => exact ⟨fun _ _ => rfl, fun _ => rfl⟩
    | minimumRemaining => exact ⟨fun _ _ => rfl, fun _ => rfl⟩
  orders s a v := by
    simp only [backtracking]
    cases o.valueOrdering with
    | unordered => exact ⟨fun _ _ => rfl, fun _ => rfl⟩
    | leastConstraining => exact ⟨fun _ _ => rfl, fun _ => rfl⟩
  infers := by
    simp only [backtracking]
    cases o.inference with
    | none => exact Inference.polls_none
    | forwardChecking => exact Inference.polls_forwardChecking
    | arcConsistency => exact Inference.polls_arcConsistency o.propagator

section Steps

variable [DecidableEq T] {a : Assignment V T}

lemma handsOn_restore (t : Trail V T) : HandsOn fun w : World V T σ => w.restore P t :=
  ⟨fun _ _ => rfl, fun _ => rfl⟩

lemma handsOn_unwind (stack : Stack P a) : HandsOn (stack.unwind : World V T σ → _) := by
  induction stack with
  | bottom => exact ⟨fun _ _ => rfl, fun _ => rfl⟩
  | push below v x trail untried ih =>
    exact HandsOn.of_cases (fun f w => (.error f, w)) (fun _ => below.unwind)
      (handsOn_restore trail) (fun _ => ⟨fun _ _ => rfl, fun _ => rfl⟩) (fun _ => ih)
      (fun w f w' h => by rw [Stack.unwind, h]) fun w _ w' h => by rw [Stack.unwind, h]

lemma handsOn_giveUp (stack : Stack P a) : HandsOn (stack.giveUp : World V T σ → _) :=
  HandsOn.of_cases (fun f w => (.error f, w))
    (fun _ w => (.ok .budgetExhausted, w)) (handsOn_unwind stack)
    (fun _ => ⟨fun _ _ => rfl, fun _ => rfl⟩) (fun _ => ⟨fun _ _ => rfl, fun _ => rfl⟩)
    (fun w f w' h => by rw [Stack.giveUp, h]) fun w _ w' h => by rw [Stack.giveUp, h]

lemma handsOn_stepBack (stack : Stack P a) : HandsOn (stack.stepBack : World V T σ → _) := by
  cases stack with
  | bottom => exact ⟨fun _ _ => rfl, fun _ => rfl⟩
  | push below v x trail untried =>
    exact HandsOn.of_cases (fun f w => Next.ends (.error f, w))
      (fun _ w => Next.moves (.choice below v untried) w.countBacktrack)
      (handsOn_restore trail) (fun _ => ⟨fun _ _ => rfl, fun _ => rfl⟩)
      (fun _ => ⟨fun _ _ => rfl, fun _ => rfl⟩)
      (fun w f w' h => by rw [Stack.stepBack, h]) fun w _ w' h => by rw [Stack.stepBack, h]

variable {S : Backtracking P σ}

/-- What a search makes of the verdict on a value. -/
def Backtracking.judge (below : Stack P a) (v : P.Open a) (x : T) (xs : List T) :
    Except (Fault V T) Verdict × Trial V T σ → Next P σ
  | (.error f, t) => .ends (.error f, t.toWorld)
  | (.ok .consistent, t) => .moves (.node (below.push v x t.trail xs)) t.toWorld
  | (.ok .inconsistent, t) =>
    match t.toWorld.restore P t.trail with
    | (.error f, w) => .ends (.error f, w)
    | (.ok _, w) => .moves (.choice below v xs) w.countBacktrack
  | (.ok .interrupted, t) =>
    match t.toWorld.restore P t.trail with
    | (.error f, w) => .ends (.error f, w)
    | (.ok _, w) => .ends (below.giveUp w)

lemma Backtracking.stepTry_eq_judge {below : Stack P a} {v : P.Open a} {x : T} {xs : List T}
    {w : World V T σ} (hfree : P.conflicts a v.val x = 0) {trail : Trail V T} {s : State V T}
    (hsuppose : w.state.countAssign.suppose P v.val x = (.ok trail, s)) :
    S.stepTry below v x xs w = Backtracking.judge below v x xs
      (S.inference.infer v.val x (a.insert v.val x) ⟨{ w with state := s }, trail⟩) := by
  rw [Backtracking.stepTry, if_pos hfree]
  simp only [hsuppose]
  rcases S.inference.infer v.val x (a.insert v.val x) ⟨{ w with state := s }, trail⟩ with
    ⟨f | verdict, t⟩
  · rfl
  · cases verdict <;> rfl

lemma handsOn_judge (below : Stack P a) (v : P.Open a) (x : T) (xs : List T) :
    HandsOn (Backtracking.judge below v x xs : _ × Trial V T σ → _) := by
  have hundo : HandsOn fun t : Trial V T σ => t.toWorld.restore P t.trail :=
    ⟨fun _ _ => rfl, fun _ => rfl⟩
  refine HandsOn.of_answers fun answer => ?_
  rcases answer with f | verdict
  · exact ⟨fun _ _ => rfl, fun _ => rfl⟩
  · cases verdict with
    | consistent => exact ⟨fun _ _ => rfl, fun _ => rfl⟩
    | inconsistent =>
      exact HandsOn.of_cases (fun f w => Next.ends (.error f, w))
        (fun _ w => Next.moves (.choice below v xs) w.countBacktrack) hundo
        (fun _ => ⟨fun _ _ => rfl, fun _ => rfl⟩) (fun _ => ⟨fun _ _ => rfl, fun _ => rfl⟩)
        (fun t f w h => by rw [Backtracking.judge, h]) fun t _ w h => by rw [Backtracking.judge, h]
    | interrupted =>
      exact HandsOn.of_cases (fun f w => Next.ends (.error f, w))
        (fun _ w => Next.ends (below.giveUp w)) hundo
        (fun _ => ⟨fun _ _ => rfl, fun _ => rfl⟩)
        (fun _ => (handsOn_giveUp below).comp (g := Next.ends) ⟨fun _ _ => rfl, fun _ => rfl⟩)
        (fun t f w h => by rw [Backtracking.judge, h]) fun t _ w h => by rw [Backtracking.judge, h]

/-- What a search makes of the variable that was picked. -/
def Backtracking.branchOn (S : Backtracking P σ) (stack : Stack P a) (s : State V T) :
    Option (P.Open a) → Context σ → Next P σ
  | none, c =>
    .ends (.error (.noVariableSelected S.variableOrdering.name a.size P.vars.length), ⟨s, c⟩)
  | some v, c =>
    match S.valueOrdering.order s a v.val c with
    | (.error f, c) => .ends (.error f, ⟨s, c⟩)
    | (.ok xs, c) => .moves (.choice stack v xs) ⟨s, c⟩

omit [DecidableEq T] in
/-- Picking the next variable and listing its values asks nothing. -/
lemma handsOn_branch (hS : S.Polls) (stack : Stack P a) (s : State V T) :
    HandsOn (S.branch stack s) := by
  refine HandsOn.of_cases (fun f c => Next.ends (.error f, ⟨s, c⟩)) (S.branchOn stack s)
    (hS.selects s a) (fun _ => ⟨fun _ _ => rfl, fun _ => rfl⟩) (fun picked => ?_)
    (fun c f c' h => by rw [Backtracking.branch, h]) fun c picked c' h => ?_
  · cases picked with
    | none => exact ⟨fun _ _ => rfl, fun _ => rfl⟩
    | some v =>
      exact HandsOn.of_cases (fun f c => Next.ends (.error f, ⟨s, c⟩))
        (fun xs c => Next.moves (.choice stack v xs) ⟨s, c⟩) (hS.orders s a v.val)
        (fun _ => ⟨fun _ _ => rfl, fun _ => rfl⟩) (fun _ => ⟨fun _ _ => rfl, fun _ => rfl⟩)
        (fun c f c' h => by rw [Backtracking.branchOn, h])
        fun c xs c' h => by rw [Backtracking.branchOn, h]
  · rw [Backtracking.branch, h]
    cases picked <;> rfl

/-! ## Steps and runs -/

/-- A search that was stopped gives up, unless it fails. -/
def Ending.Stopped (ending : Ending V T σ) : Prop :=
  ending.Answered → ending.1 = .ok .budgetExhausted

/-- A step that has ended a search that way. -/
def Next.Stopped (next : Next P σ) : Prop := ∃ ending, next = .ends ending ∧ ending.Stopped

omit [DecidableEq V] [DecidableEq T] in
lemma Ending.stopped_fault (f : Fault V T) (w : World V T σ) : Ending.Stopped (.error f, w) := nofun

lemma stopped_giveUp (stack : Stack P a) (w : World V T σ) : (stack.giveUp w).Stopped := by
  rcases stack.giveUp_cases w with ⟨w', -, heq⟩ | ⟨f, w', heq⟩
  · rw [heq]
    exact fun _ => rfl
  · rw [heq]
    exact Ending.stopped_fault f w'

/-- A value whose inference was interrupted ends the search. -/
lemma stopped_judge {below : Stack P a} {v : P.Open a} {x : T} {xs : List T}
    {r : Except (Fault V T) Verdict × Trial V T σ} (hr : r.1 = .ok .interrupted) :
    (Backtracking.judge below v x xs r).Stopped := by
  rcases r with ⟨answer, t⟩
  obtain rfl : answer = .ok .interrupted := hr
  rw [Backtracking.judge]
  rcases t.toWorld.restore P t.trail with ⟨f | _, w⟩
  · exact ⟨_, rfl, Ending.stopped_fault f w⟩
  · exact ⟨_, rfl, stopped_giveUp below w⟩

section Polls

variable (hS : S.Polls)

include hS in
/-- **From a node** a search asks once, unless it is done. -/
lemma Backtracking.exists_polls_stepNode (stack : Stack P a) (w : World V T σ) :
    ∃ k, BinaryCsp.Polls Next.Stopped (decided w) (fun l => S.stepNode stack (under w l)) k := by
  by_cases hsize : a.size = P.vars.length
  · refine ⟨0, polls_zero (fun l => ?_) fun kind => ?_⟩
    · rw [Backtracking.stepNode, Backtracking.stepNode, if_pos hsize, if_pos hsize]
      rfl
    · rw [Backtracking.stepNode, if_pos hsize]
      exact Nat.le_refl _
  · have hbranch := handsOn_branch hS stack w.state
    have hask : BinaryCsp.Polls Next.Stopped (decided w) _ (1 + 0) := polls_ask
      (fun l => Next.ends (stack.giveUp (under w l)))
      (fun l => S.branch stack w.state (under w.context l).countNode)
      (fun l => ⟨⟨_, rfl, stopped_giveUp stack _⟩, (handsOn_giveUp stack).limit_eq (under w l),
        fun kind => Nat.le_of_eq (congrFun ((handsOn_giveUp stack).decided_eq (under w l)) kind)⟩)
      (polls_zero (fun l => hbranch.under_eq (Context.countNode (under w.context .never)) l)
        fun kind => ?_)
    · refine ⟨1 + 0, ?_⟩
      convert hask using 2 with l
      rw [Backtracking.stepNode, if_neg hsize]
      simp only [Context.poll]
      rw [show (under w l).context.limit = l from rfl]
      cases l.poll.1 <;> rfl
    · rw [hbranch.decided_eq]
      cases kind with
      | node => exact Nat.le_refl _
      | move => exact Nat.le_succ _

include hS in
/-- **Trying a value** a search asks as often as the inference does. -/
lemma Backtracking.exists_polls_stepTry (below : Stack P a) (v : P.Open a) (x : T) (xs : List T)
    (w : World V T σ) : ∃ k, BinaryCsp.Polls Next.Stopped (decided w)
      (fun l => S.stepTry below v x xs (under w l)) k := by
  by_cases hfree : P.conflicts a v.val x = 0
  · rcases hsuppose : w.state.countAssign.suppose P v.val x with ⟨f | trail, s⟩
    · refine ⟨0, polls_zero (fun l => ?_) fun kind => ?_⟩
      · rw [Backtracking.stepTry, Backtracking.stepTry, if_pos hfree, if_pos hfree]
        simp only [show ∀ l, (under w l).state = w.state from fun _ => rfl, hsuppose]
        rfl
      · rw [Backtracking.stepTry, if_pos hfree]
        simp only [show (under w .never).state = w.state from rfl, hsuppose]
        exact Nat.le_refl _
    · obtain ⟨k, hinfer⟩ := hS.infers v.val x (a.insert v.val x) ⟨{ w with state := s }, trail⟩
      have hjudge : BinaryCsp.Polls Next.Stopped (decided w) _ k :=
        hinfer.map (handsOn_judge below v x xs) fun r hr => stopped_judge hr
      refine ⟨k, ?_⟩
      rw [show (fun l => S.stepTry below v x xs (under w l)) = _ from
        funext fun l => Backtracking.stepTry_eq_judge (w := under w l) hfree hsuppose]
      exact hjudge
  · refine ⟨0, polls_zero (fun l => ?_) fun kind => ?_⟩
    · rw [Backtracking.stepTry, Backtracking.stepTry, if_neg hfree, if_neg hfree]
      rfl
    · rw [Backtracking.stepTry, if_neg hfree]
      exact Nat.le_refl _

include hS in
/-- **A step asks so often, and when it is told to stop it ends the search.** -/
theorem Backtracking.exists_polls_step (p : Point P) (w : World V T σ) :
    ∃ k, BinaryCsp.Polls Next.Stopped (decided w) (fun l => S.step p (under w l)) k := by
  cases p with
  | node stack => exact Backtracking.exists_polls_stepNode hS stack w
  | choice below v untried =>
    cases untried with
    | nil => exact ⟨0, (handsOn_stepBack below).polls w⟩
    | cons x xs => exact Backtracking.exists_polls_stepTry hS below v x xs w

include hS in
/-- **A search asks so often, and when it is told to stop it gives up.** -/
theorem Backtracking.exists_polls_run (p : Point P) (w : World V T σ) :
    ∃ k, BinaryCsp.Polls Ending.Stopped (decided w) (fun l => S.run p (under w l)) k := by
  induction p using comesAfter_wf.induction generalizing w with
  | h p ih =>
    obtain ⟨k, hstep⟩ := Backtracking.exists_polls_step hS p w
    obtain ⟨k', hrest⟩ : ∃ k', BinaryCsp.Polls Ending.Stopped
        (decided (S.step p (under w .never)))
        (fun l => S.resume (under (S.step p (under w .never)) l)) k' := by
      rcases hnext : S.step p (under w .never) with ⟨q, w'⟩ | ending
      · exact ih q (step_comesAfter hnext) w'
      · exact ⟨0, polls_zero (fun l => rfl) fun _ => Nat.le_refl _⟩
    refine ⟨k + k', ?_⟩
    have hrun : BinaryCsp.Polls Ending.Stopped (decided w)
        (fun l => S.resume (S.step p (under w l))) (k + k') := hstep.bind ?_ hstep.decides hrest
    · convert hrun using 2 with l
      exact Backtracking.run_eq_resume p (under w l)
    · rintro next ⟨ending, rfl, hstopped⟩
      exact ⟨hstopped, rfl, fun kind => Nat.le_max_right _ _⟩

end Polls

end Steps

end BinaryCsp
