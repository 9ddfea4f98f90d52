import BinaryCsp.Search.Ordering
import BinaryCsp.Search.Outcome

/-!
# Backtracking search

The search keeps a `Stack` of frames.  A frame holds a variable, the value it is given, the trail
of what that value has ruled out, and the values still to try.  The stack is indexed by the
assignment that its frames make up, so the two can not fall apart.

Between two steps the search is at a `Point`: either at a *node*, where every frame has a live
value and the next variable is to be picked, or at a *choice*, where a variable above the stack
waits for its next value.  `step` leads from one point to the next:

* a node whose assignment is complete is a solution; otherwise the limit is asked, a variable is
  picked, and its values are ordered;
* a choice tries its next value that has no conflict: assigns, supposes, infers.  If the inference
  finds a contradiction the trail is undone and the next value is tried;
* a choice without values goes back to the frame below, undoes its trail, and resumes its values.

When the limit fires, every frame is undone on the way out.

**The search ends for every choice of orderings and inference** (`comesAfter_wf`), since a frame
only ever loses values and the stack is no deeper than there are variables.
-/

namespace BinaryCsp

/-- A variable ordering, a value ordering and an inference. -/
structure Backtracking {V T : Type} [DecidableEq V] (P : Problem V T) (σ : Type) where
  variableOrdering : VariableOrdering P σ
  valueOrdering : ValueOrdering P σ
  inference : Inference P σ

variable {V T σ : Type} [DecidableEq V]

/-! ## Where a search can be -/

/-- The frames of a search, indexed by the assignment they make up. -/
inductive Stack (P : Problem V T) : Assignment V T → Type where
  | bottom : Stack P .empty
  | push {a : Assignment V T} (below : Stack P a) (v : P.Open a) (x : T) (trail : Trail V T)
      (untried : List T) : Stack P (a.insert v.val x)

/-- Where a search is between two steps. -/
inductive Point (P : Problem V T) where
  /-- Every frame has a live value. -/
  | node {a : Assignment V T} (stack : Stack P a)
  /-- A variable above the stack waits for its next value. -/
  | choice {a : Assignment V T} (below : Stack P a) (v : P.Open a) (untried : List T)

/-- Which point can come after which, whatever the orderings and the inference. -/
inductive ComesAfter {P : Problem V T} : Point P → Point P → Prop where
  | branch {a : Assignment V T} (stack : Stack P a) (v : P.Open a) (xs : List T) :
      ComesAfter (.choice stack v xs) (.node stack)
  | skip {a : Assignment V T} (below : Stack P a) (v : P.Open a) (x : T) (xs : List T) :
      ComesAfter (.choice below v xs) (.choice below v (x :: xs))
  | descend {a : Assignment V T} (below : Stack P a) (v : P.Open a) (x : T) (t : Trail V T)
      (xs : List T) :
      ComesAfter (.node (below.push v x t xs)) (.choice below v (x :: xs))
  | back {a : Assignment V T} (below : Stack P a) (v : P.Open a) (x : T) (t : Trail V T)
      (xs : List T) (w : P.Open (a.insert v.val x)) :
      ComesAfter (.choice below v xs) (.choice (below.push v x t xs) w [])

/-! ## Why a search ends -/

theorem unassigned_insert_lt {P : Problem V T} {a : Assignment V T} (v : P.Open a) (x : T) :
    (P.unassigned (a.insert v.val x)).length < (P.unassigned a).length := by
  have h : P.unassigned (a.insert v.val x) =
      (P.unassigned a).filter fun w => !decide (v.val = w) := by
    unfold Problem.unassigned
    rw [List.filter_filter]
    refine List.filter_congr fun w _ => ?_
    by_cases hv : v.val = w <;> simp [hv]
  rw [h]
  refine List.length_filter_lt_length_iff_exists.2 ⟨v.val, ?_, by simp⟩
  simpa [Problem.unassigned] using v.property

/-- What a point on top of a stack can go back to is accessible. -/
def Stack.BackAcc {P : Problem V T} : {a : Assignment V T} → Stack P a → Prop
  | _, .bottom => True
  | _, .push below v _ _ untried => Acc ComesAfter (Point.choice below v untried)

theorem acc_choice {P : Problem V T} {a : Assignment V T} (below : Stack P a)
    (back : below.BackAcc)
    (node : ∀ (v : P.Open a) (x : T) (t : Trail V T) (xs : List T),
      Acc ComesAfter (Point.choice below v xs) → Acc ComesAfter (Point.node (below.push v x t xs)))
    (v : P.Open a) (xs : List T) : Acc ComesAfter (Point.choice below v xs) := by
  induction xs with
  | nil =>
    refine Acc.intro _ fun q h => ?_
    cases h with
    | back _ _ _ _ _ _ => exact back
  | cons x xs ih =>
    refine Acc.intro _ fun q h => ?_
    cases h with
    | skip _ _ _ _ => exact ih
    | descend _ _ _ t _ => exact node v x t xs ih

theorem acc_node {P : Problem V T} : (n : Nat) → {a : Assignment V T} → (stack : Stack P a) →
    (P.unassigned a).length = n → stack.BackAcc → Acc ComesAfter (Point.node stack)
  | n, a, stack, hn, back => by
    refine Acc.intro _ fun q h => ?_
    cases h with
    | branch _ v xs =>
      refine acc_choice stack back (fun w x t ys hy => ?_) v xs
      have := unassigned_insert_lt w x
      exact acc_node _ (stack.push w x t ys) rfl hy
termination_by n => n
decreasing_by omega

theorem Stack.backAcc {P : Problem V T} {a : Assignment V T} (stack : Stack P a) :
    stack.BackAcc := by
  induction stack with
  | bottom => trivial
  | push below v x t xs ih =>
    exact acc_choice below ih (fun w y u ys hy => acc_node _ _ rfl hy) v xs

/-- **No search goes on for ever.** -/
theorem comesAfter_wf {P : Problem V T} : WellFounded (ComesAfter (P := P)) := by
  refine ⟨fun p => ?_⟩
  cases p with
  | node stack => exact acc_node _ stack rfl stack.backAcc
  | choice below v xs =>
    exact acc_choice below below.backAcc (fun w y u ys hy => acc_node _ _ rfl hy) v xs

/-! ## The steps -/

section Steps

variable [DecidableEq T] {P : Problem V T}

inductive Next (P : Problem V T) (σ : Type) where
  | moves (point : Point P) (world : World V T σ)
  | ends (ending : Ending V T σ)

def World.restore (P : Problem V T) (w : World V T σ) (t : Trail V T) :
    Except (Fault V T) Unit × World V T σ :=
  match w.state.restore P t with
  | (answer, s) => (answer, { w with state := s })

def World.countBacktrack (w : World V T σ) : World V T σ :=
  { w with context := w.context.count fun n => { n with backtracks := n.backtracks + 1 } }

/-- Undoes every frame, the topmost first. -/
def Stack.unwind : {a : Assignment V T} → Stack P a → World V T σ →
    Except (Fault V T) Unit × World V T σ
  | _, .bottom, w => (.ok (), w)
  | _, .push below _ _ trail _, w =>
    match w.restore P trail with
    | (.error f, w) => (.error f, w)
    | (.ok _, w) => below.unwind w

/-- Gives up: undoes every frame and ends without an answer. -/
def Stack.giveUp {a : Assignment V T} (stack : Stack P a) (w : World V T σ) : Ending V T σ :=
  match stack.unwind w with
  | (.error f, w) => (.error f, w)
  | (.ok _, w) => (.ok .budgetExhausted, w)

def Context.countNode (c : Context σ) : Context σ :=
  c.count fun n => { n with nodesVisited := n.nodesVisited + 1 }

/-- Picks the next variable and orders its values. -/
def Backtracking.branch (S : Backtracking P σ) {a : Assignment V T} (stack : Stack P a)
    (s : State V T) (c : Context σ) : Next P σ :=
  match S.variableOrdering.select s a c with
  | (.error f, c) => .ends (.error f, ⟨s, c⟩)
  | (.ok none, c) =>
    .ends (.error (.noVariableSelected S.variableOrdering.name a.size P.vars.length), ⟨s, c⟩)
  | (.ok (some v), c) =>
    match S.valueOrdering.order s a v.val c with
    | (.error f, c) => .ends (.error f, ⟨s, c⟩)
    | (.ok xs, c) => .moves (.choice stack v xs) ⟨s, c⟩

def Backtracking.stepNode (S : Backtracking P σ) {a : Assignment V T} (stack : Stack P a)
    (w : World V T σ) : Next P σ :=
  if a.size = P.vars.length then .ends (.ok (.solved a), w)
  else
    match w.context.poll with
    | (true, c) => .ends (stack.giveUp ⟨w.state, c⟩)
    | (false, c) => S.branch stack w.state c.countNode

def Stack.stepBack : {a : Assignment V T} → Stack P a → World V T σ → Next P σ
  | _, .bottom, w => .ends (.ok .unsatisfiable, w)
  | _, .push below v _ trail untried, w =>
    match w.restore P trail with
    | (.error f, w) => .ends (.error f, w)
    | (.ok _, w) => .moves (.choice below v untried) w.countBacktrack

def Backtracking.stepTry (S : Backtracking P σ) {a : Assignment V T} (below : Stack P a)
    (v : P.Open a) (x : T) (xs : List T) (w : World V T σ) : Next P σ :=
  if P.conflicts a v.val x = 0 then
    match w.state.countAssign.suppose P v.val x with
    | (.error f, s) => .ends (.error f, { w with state := s })
    | (.ok trail, s) =>
      match S.inference.infer v.val x (a.insert v.val x) ⟨{ w with state := s }, trail⟩ with
      | (.error f, t) => .ends (.error f, t.toWorld)
      | (.ok .consistent, t) => .moves (.node (below.push v x t.trail xs)) t.toWorld
      | (.ok .inconsistent, t) =>
        match t.toWorld.restore P t.trail with
        | (.error f, w) => .ends (.error f, w)
        | (.ok _, w) => .moves (.choice below v xs) w.countBacktrack
      | (.ok .interrupted, t) =>
        match t.toWorld.restore P t.trail with
        | (.error f, w) => .ends (.error f, w)
        | (.ok _, w) => .ends (below.giveUp w)
  else .moves (.choice below v xs) w

def Backtracking.step (S : Backtracking P σ) : Point P → World V T σ → Next P σ
  | .node stack, w => S.stepNode stack w
  | .choice below _ [], w => below.stepBack w
  | .choice below v (x :: xs), w => S.stepTry below v x xs w

theorem stepNode_comesAfter {S : Backtracking P σ} {a : Assignment V T} {stack : Stack P a}
    {w w' : World V T σ} {q : Point P} (h : S.stepNode stack w = .moves q w') :
    ComesAfter q (.node stack) := by
  unfold Backtracking.stepNode Backtracking.branch at h
  repeat' split at h
  all_goals cases h
  exact .branch _ _ _

theorem stepBack_comesAfter {a : Assignment V T} {stack : Stack P a} {v : P.Open a}
    {w w' : World V T σ} {q : Point P} (h : stack.stepBack w = .moves q w') :
    ComesAfter q (.choice stack v []) := by
  cases stack with
  | bottom => cases h
  | push below u x trail untried =>
    simp only [Stack.stepBack] at h
    split at h
    all_goals cases h
    exact .back _ _ _ _ _ _

theorem stepTry_comesAfter {S : Backtracking P σ} {a : Assignment V T} {below : Stack P a}
    {v : P.Open a} {x : T} {xs : List T} {w w' : World V T σ} {q : Point P}
    (h : S.stepTry below v x xs w = .moves q w') : ComesAfter q (.choice below v (x :: xs)) := by
  rw [Backtracking.stepTry] at h
  repeat' split at h
  all_goals cases h
  · exact .descend _ _ _ _ _
  · exact .skip _ _ _ _
  · exact .skip _ _ _ _

theorem step_comesAfter {S : Backtracking P σ} {p q : Point P} {w w' : World V T σ}
    (h : S.step p w = .moves q w') : ComesAfter q p := by
  cases p with
  | node stack => exact stepNode_comesAfter h
  | choice below v xs =>
    cases xs with
    | nil => exact stepBack_comesAfter h
    | cons x xs => exact stepTry_comesAfter h

/-! ## The search -/

/-- Takes steps until the search ends. -/
def Backtracking.run (S : Backtracking P σ) (p : Point P) (w : World V T σ) : Ending V T σ :=
  match _next : S.step p w with
  | .ends ending => ending
  | .moves q w => S.run q w
termination_by comesAfter_wf.wrap p
decreasing_by exact step_comesAfter _next

def Backtracking.search (S : Backtracking P σ) (w : World V T σ) : Ending V T σ :=
  S.run (.node .bottom) w

def Backtracking.toStrategy (S : Backtracking P σ) : Strategy V T σ where
  describe :=
    "backtracking(" ++ S.variableOrdering.name ++ ", " ++ S.valueOrdering.name ++ ", " ++
      S.inference.name ++ ")"
  solve w := conclude P "backtracking search" w.state.assigns (S.search w)

end Steps

end BinaryCsp
