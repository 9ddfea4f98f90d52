import BinaryCsp.Proofs.Loop
import BinaryCsp.Search.Backtracking
import Mathlib.Tactic.Common

/-!
# What one step of a search can do

There is one relation for each kind of step, with one case for each way it can go and all guards on
the way: `NodeStep` from a node, `BackStep` from a choice without values, `TryStep` from a choice
with a value to try.  `nodeStep`, `backStep` and `tryStep` say that these are all the ways there
are, for any orderings, any inference, and any limit; `pointStep` says it of any point.

`Backtracking.run_induction` lifts what every step preserves (`Next.Meets`) to a whole run.  A
search that is given can be run step by step (`Backtracking.read_search`).
-/

namespace BinaryCsp

variable {V T σ : Type} [DecidableEq V] [DecidableEq T] {P : Problem V T}

/-! ## From a node -/

/-- What a step from a node can lead to. -/
inductive NodeStep (S : Backtracking P σ) {a : Assignment V T} (stack : Stack P a)
    (w : World V T σ) : Next P σ → Prop where
  | complete (size : a.size = P.vars.length) : NodeStep S stack w (.ends (.ok (.solved a), w))
  | stop {c : Context σ} (size : a.size ≠ P.vars.length) (poll : w.context.poll = (true, c)) :
      NodeStep S stack w (.ends (stack.giveUp ⟨w.state, c⟩))
  | fault (f : Fault V T) (c : Context σ) : NodeStep S stack w (.ends (.error f, ⟨w.state, c⟩))
  | branch {c c' c'' : Context σ} {v : P.Open a} {xs : List T} (size : a.size ≠ P.vars.length)
      (poll : w.context.poll = (false, c))
      (select : S.variableOrdering.select w.state a c.countNode = (.ok (some v), c'))
      (order : S.valueOrdering.order w.state a v.val c' = (.ok xs, c'')) :
      NodeStep S stack w (.moves (.choice stack v xs) ⟨w.state, c''⟩)

theorem nodeStep (S : Backtracking P σ) {a : Assignment V T} (stack : Stack P a)
    (w : World V T σ) : NodeStep S stack w (S.stepNode stack w) := by
  rw [Backtracking.stepNode]
  split
  · rename_i size
    exact .complete size
  · rename_i size
    split
    · rename_i c poll
      exact .stop size poll
    · rename_i c poll
      rw [Backtracking.branch]
      split
      · exact .fault _ _
      · exact .fault _ _
      · rename_i v c' select
        split
        · exact .fault _ _
        · rename_i xs c'' order
          exact .branch size poll select order

/-! ## From a choice without values -/

/-- What a step back to the frame below can lead to. -/
inductive BackStep (w : World V T σ) : {a : Assignment V T} → Stack P a → Next P σ → Prop where
  | unsatisfiable : BackStep w .bottom (.ends (.ok .unsatisfiable, w))
  | fault {a : Assignment V T} (stack : Stack P a) (f : Fault V T) (w' : World V T σ) :
      BackStep w stack (.ends (.error f, w'))
  | resume {a : Assignment V T} {below : Stack P a} {v : P.Open a} {x : T} {trail : Trail V T}
      {untried : List T} {w' : World V T σ} (restore : w.restore P trail = (.ok (), w')) :
      BackStep w (below.push v x trail untried) (.moves (.choice below v untried) w'.countBacktrack)

theorem backStep {a : Assignment V T} (stack : Stack P a) (w : World V T σ) :
    BackStep w stack (stack.stepBack w) := by
  cases stack with
  | bottom => exact .unsatisfiable
  | push below v x trail untried =>
    rw [Stack.stepBack]
    split
    · exact .fault _ _ _
    · rename_i w' restore
      exact .resume restore

/-! ## From a choice with a value to try -/

/-- A value without a conflict was supposed, and the inference came to a verdict. -/
structure Tried (S : Backtracking P σ) {a : Assignment V T} (v : P.Open a) (x : T)
    (w : World V T σ) (verdict : Verdict) (t : Trial V T σ) : Prop where
  free : P.conflicts a v.val x = 0
  inferred : ∃ trail s, w.state.countAssign.suppose P v.val x = (.ok trail, s) ∧
    S.inference.infer v.val x (a.insert v.val x) ⟨{ w with state := s }, trail⟩ = (.ok verdict, t)

/-- What trying a value can lead to. -/
inductive TryStep (S : Backtracking P σ) {a : Assignment V T} (below : Stack P a) (v : P.Open a)
    (x : T) (xs : List T) (w : World V T σ) : Next P σ → Prop where
  | conflict (conflicts : P.conflicts a v.val x ≠ 0) :
      TryStep S below v x xs w (.moves (.choice below v xs) w)
  | fault (f : Fault V T) (w' : World V T σ) : TryStep S below v x xs w (.ends (.error f, w'))
  | descend {t : Trial V T σ} (tried : Tried S v x w .consistent t) :
      TryStep S below v x xs w (.moves (.node (below.push v x t.trail xs)) t.toWorld)
  | undo {t : Trial V T σ} {w' : World V T σ} (tried : Tried S v x w .inconsistent t)
      (restore : t.toWorld.restore P t.trail = (.ok (), w')) :
      TryStep S below v x xs w (.moves (.choice below v xs) w'.countBacktrack)
  | stop {t : Trial V T σ} {w' : World V T σ} (tried : Tried S v x w .interrupted t)
      (restore : t.toWorld.restore P t.trail = (.ok (), w')) :
      TryStep S below v x xs w (.ends (below.giveUp w'))

theorem tryStep (S : Backtracking P σ) {a : Assignment V T} (below : Stack P a) (v : P.Open a)
    (x : T) (xs : List T) (w : World V T σ) :
    TryStep S below v x xs w (S.stepTry below v x xs w) := by
  rw [Backtracking.stepTry]
  split
  · rename_i free
    split
    · exact .fault _ _
    · rename_i trail s suppose
      split
      · exact .fault _ _
      · rename_i t infer
        exact .descend ⟨free, trail, s, suppose, infer⟩
      · rename_i t infer
        split
        · exact .fault _ _
        · rename_i w' restore
          exact .undo ⟨free, trail, s, suppose, infer⟩ restore
      · rename_i t infer
        split
        · exact .fault _ _
        · rename_i w' restore
          exact .stop ⟨free, trail, s, suppose, infer⟩ restore
  · rename_i conflicts
    exact .conflict conflicts

/-- A value that was tried without a contradiction becomes the topmost frame. -/
lemma Tried.stepTry_eq {S : Backtracking P σ} {a : Assignment V T} {v : P.Open a} {x : T}
    {w : World V T σ} {t : Trial V T σ} (h : Tried S v x w .consistent t) (below : Stack P a)
    (xs : List T) :
    S.stepTry below v x xs w = .moves (.node (below.push v x t.trail xs)) t.toWorld := by
  obtain ⟨trail, s, hsuppose, hinfer⟩ := h.inferred
  rw [Backtracking.stepTry, if_pos h.free, hsuppose]
  dsimp only
  rw [hinfer]

/-! ## From any point -/

/-- What a step can lead to, whatever the point. -/
inductive PointStep (S : Backtracking P σ) (w : World V T σ) : Point P → Next P σ → Prop where
  | node {a : Assignment V T} {stack : Stack P a} {next : Next P σ}
      (step : NodeStep S stack w next) : PointStep S w (.node stack) next
  | back {a : Assignment V T} {below : Stack P a} {v : P.Open a} {next : Next P σ}
      (step : BackStep w below next) : PointStep S w (.choice below v []) next
  | attempt {a : Assignment V T} {below : Stack P a} {v : P.Open a} {x : T} {xs : List T}
      {next : Next P σ} (step : TryStep S below v x xs w next) :
      PointStep S w (.choice below v (x :: xs)) next

theorem pointStep (S : Backtracking P σ) (p : Point P) (w : World V T σ) :
    PointStep S w p (S.step p w) := by
  cases p with
  | node stack => exact .node (nodeStep S stack w)
  | choice below v untried =>
    cases untried with
    | nil => exact .back (backStep below w)
    | cons x xs => exact .attempt (tryStep S below v x xs w)

/-! ## Endings without success -/

omit [DecidableEq V] [DecidableEq T] in
/-- A search that has ended neither with a solution nor with a fault. -/
def Ending.Unsuccessful (ending : Ending V T σ) : Prop :=
  ending.1 = .ok .unsatisfiable ∨ ending.1 = .ok .budgetExhausted

section Unsuccessful

variable (w : World V T σ)

omit [DecidableEq V] [DecidableEq T]

lemma Ending.unsuccessful_unsatisfiable : Unsuccessful ((.ok .unsatisfiable, w) : Ending V T σ) :=
  Or.inl rfl

lemma Ending.unsuccessful_budgetExhausted :
    Unsuccessful ((.ok .budgetExhausted, w) : Ending V T σ) :=
  Or.inr rfl

lemma Ending.not_unsuccessful_fault (f : Fault V T) :
    ¬Unsuccessful ((.error f, w) : Ending V T σ) := by
  rintro (h | h) <;> cases h

lemma Ending.not_unsuccessful_solved (a : Assignment V T) :
    ¬Unsuccessful ((.ok (.solved a), w) : Ending V T σ) := by
  rintro (h | h) <;> cases h

end Unsuccessful

/-- Giving up ends without an answer once all frames are undone, or with a fault. -/
lemma Stack.giveUp_cases {a : Assignment V T} (stack : Stack P a) (w : World V T σ) :
    (∃ w', stack.unwind w = (.ok (), w') ∧ stack.giveUp w = (.ok .budgetExhausted, w')) ∨
      ∃ f w', stack.giveUp w = (.error f, w') := by
  rw [giveUp]
  split
  · exact Or.inr ⟨_, _, rfl⟩
  · rename_i w' unwind
    exact Or.inl ⟨w', unwind, rfl⟩

/-- Whoever gives up has no solution. -/
lemma Stack.giveUp_ne_solved {a : Assignment V T} (stack : Stack P a) (w : World V T σ)
    (b : Assignment V T) : (stack.giveUp w).1 ≠ .ok (.solved b) := by
  rcases stack.giveUp_cases w with ⟨w', -, heq⟩ | ⟨f, w', heq⟩
  · rw [heq]
    nofun
  · rw [heq]
    nofun

/-- A search ends with a solution at a node only, whose assignment is complete. -/
lemma Backtracking.node_of_solved {S : Backtracking P σ} {p : Point P} {w w' : World V T σ}
    {b : Assignment V T} (h : S.step p w = .ends (.ok (.solved b), w')) :
    ∃ stack : Stack P b, p = .node stack ∧ b.size = P.vars.length ∧ w' = w := by
  have hgaveUp : ∀ {a : Assignment V T} (stack : Stack P a) (w : World V T σ),
      (.ends (stack.giveUp w) : Next P σ) ≠ .ends (.ok (.solved b), w') := fun stack w hends =>
    stack.giveUp_ne_solved w b (congrArg Prod.fst (Next.ends.inj hends))
  have hcases := pointStep S p w
  rw [h] at hcases
  generalize hends : (.ends (.ok (.solved b), w') : Next P σ) = next at hcases
  cases hcases with
  | node step =>
    cases step with
    | complete size =>
      cases hends
      exact ⟨_, rfl, size, rfl⟩
    | stop size poll => exact absurd hends.symm (hgaveUp _ _)
    | fault f c => cases hends
    | branch size poll select order => cases hends
  | back step => cases step <;> cases hends
  | attempt step =>
    cases step with
    | conflict conflicts => cases hends
    | fault f w' => cases hends
    | descend tried => cases hends
    | undo tried restore => cases hends
    | stop tried restore => exact absurd hends.symm (hgaveUp _ _)

/-! ## Runs -/

lemma Backtracking.run_of_moves {S : Backtracking P σ} {p q : Point P} {w w' : World V T σ}
    (h : S.step p w = .moves q w') : S.run p w = S.run q w' := by
  rw [run]
  split
  · rename_i hnext
    cases h.symm.trans hnext
  · rename_i hnext
    cases h.symm.trans hnext
    rfl

lemma Backtracking.run_of_ends {S : Backtracking P σ} {p : Point P} {w : World V T σ}
    {ending : Ending V T σ} (h : S.step p w = .ends ending) : S.run p w = ending := by
  rw [run]
  split
  · rename_i hnext
    cases h.symm.trans hnext
    rfl
  · rename_i hnext
    cases h.symm.trans hnext

/-- What comes of a step. -/
def Backtracking.resume (S : Backtracking P σ) : Next P σ → Ending V T σ
  | .moves q w => S.run q w
  | .ends ending => ending

lemma Backtracking.run_eq_resume {S : Backtracking P σ} (p : Point P) (w : World V T σ) :
    S.run p w = S.resume (S.step p w) := by
  rcases hnext : S.step p w with ⟨q, w'⟩ | ending
  · exact run_of_moves hnext
  · exact run_of_ends hnext

/-- A step as a round of a loop. -/
def Next.round : Next P σ → Round (Point P × World V T σ) (Ending V T σ)
  | .moves q w => .again (q, w)
  | .ends ending => .done ending

/-- A search that is given can be run step by step. -/
lemma Backtracking.read_search (S : Backtracking P σ) (w : World V T σ) {B : Type}
    (read : Ending V T σ → B) (n : Nat) {b : B}
    (h : (Round.after (fun _ e => (S.step e.1 e.2).round) (.node .bottom, w) n).answer?.map read
      = some b) : read (S.search w) = b := by
  refine Round.read_of_after (f := fun e => S.run e.1 e.2) (fun e => ?_) h
  rw [run_eq_resume]
  cases S.step e.1 e.2 with
  | moves q w' => rfl
  | ends ending => rfl

/-- Where a step leads to, a point in a world or an ending, is as it should be. -/
def Next.Meets (I : Point P → World V T σ → Prop) (R : Ending V T σ → Prop) : Next P σ → Prop
  | .moves q w => I q w
  | .ends ending => R ending

/-- **What every step preserves holds of a whole run**: an invariant that steps keep as long as they
move, and from which a step that ends reaches its goal. -/
theorem Backtracking.run_induction {S : Backtracking P σ} {I : Point P → World V T σ → Prop}
    {R : Ending V T σ → Prop} (step : ∀ p w, I p w → (S.step p w).Meets I R) {p : Point P}
    {w : World V T σ} (h : I p w) : R (S.run p w) := by
  fun_induction run S p w with
  | case1 p w ending hnext =>
    have hmeets := step p w h
    rwa [hnext] at hmeets
  | case2 p w q w' hnext ih =>
    have hmeets := step p w h
    rw [hnext] at hmeets
    exact ih hmeets

end BinaryCsp
