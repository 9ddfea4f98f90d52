import BinaryCsp.Proofs.Search.Step

/-!
# The search on a stack is the recursive search

`Backtracking.recurse` is backtracking as it is usually told, with one call for each node: a
complete assignment is a solution; otherwise the limit is asked, a variable is picked, and its
values are tried in order.  A value without a conflict is assigned and supposed, the inference is
made, and if that finds no contradiction the search calls itself.  What has found nothing is undone
before the next value is tried, and on the way out.

The recursive procedure works on one assignment that is changed in place.  While the values of a
variable are tried it still holds the value tried last, which counts for nothing (`Over.Tries`).  A
call that finds nothing leaves the assignment as it was (`Backtracking.leaves_recurse`).

Every point of the stack search has an answer in terms of the recursion: the answer of the call that
is being made there, handed down through the calls that wait for it (`Backtracking.answer`).  No
step changes the answer (`Backtracking.answer_step`), so the search ends with the answer that the
recursion gives at the start.
-/

namespace BinaryCsp

variable {V T σ : Type} [DecidableEq V] {P : Problem V T}

/-! ## An assignment that is changed in place -/

/-- The assignments that have a value for every variable of a given one. -/
abbrev Assignment.Over (a : Assignment V T) := { b : Assignment V T // ∀ u ∈ a, u ∈ b }

namespace Assignment.Over

variable {a : Assignment V T}

def refl (a : Assignment V T) : a.Over := ⟨a, fun _ h => h⟩

def assign (b : a.Over) (v : V) (x : T) : a.Over :=
  ⟨b.val.insert v x, fun u hu => PartialMap.mem_insert.mpr (Or.inr (b.property u hu))⟩

def unassign (b : a.Over) (v : P.Open a) : a.Over :=
  ⟨b.val.erase v.val, fun u hu =>
    PartialMap.mem_erase.mpr ⟨fun h => v.property.2 (h ▸ hu), b.property u hu⟩⟩

def weaken (b : a.Over) (d : b.val.Over) : a.Over :=
  ⟨d.val, fun u hu => d.property u (b.property u hu)⟩

/-- While the values of a variable are tried: it has no value yet, or that tried last. -/
def Tries (b : a.Over) (v : V) : Prop := b.val = a ∨ ∃ y, b.val = a.insert v y

lemma tries_refl (v : V) : (refl a).Tries v := Or.inl rfl

lemma tries_assign (v : V) (x : T) : ((refl a).assign v x).Tries v := Or.inr ⟨x, rfl⟩

/-- A value replaces the one tried last. -/
lemma Tries.assign_eq {b : a.Over} {v : V} (h : b.Tries v) (x : T) :
    b.assign v x = (refl a).assign v x := by
  refine Subtype.ext ?_
  rcases h with h | ⟨y, h⟩
  · exact congrArg (·.insert v x) h
  · exact (congrArg (·.insert v x) h).trans (a.insert_insert v y x)

lemma Tries.unassign_eq {b : a.Over} {v : P.Open a} (h : b.Tries v.val) :
    (b.unassign v).val = a := by
  rcases h with h | ⟨y, h⟩
  · exact (congrArg (·.erase v.val) h).trans (PartialMap.erase_eq_self v.property.2)
  · exact (congrArg (·.erase v.val) h).trans (PartialMap.erase_insert v.property.2 y)

/-- The value tried last takes no part in conflicts of its own variable. -/
lemma Tries.conflicts {b : a.Over} {v : V} (h : b.Tries v) (x : T) :
    P.conflicts b.val v x = P.conflicts a v x := by
  rcases h with h | ⟨y, h⟩
  · rw [h]
  · rw [h, P.conflicts_insert_self]

/-- Giving an open variable a value leaves fewer variables open. -/
lemma unassigned_assign_lt (b : a.Over) (v : P.Open a) (x : T) :
    (P.unassigned (b.assign v.val x).val).length < (P.unassigned a).length := by
  have hsub : P.unassigned (b.assign v.val x).val
      = (P.unassigned a).filter fun w => !decide (w ∈ (b.assign v.val x).val) := by
    rw [Problem.unassigned, Problem.unassigned, List.filter_filter]
    refine List.filter_congr fun w _ => ?_
    by_cases hw : w ∈ (b.assign v.val x).val
    · simp [hw]
    · have hwa : w ∉ a := fun hwa => hw ((b.assign v.val x).property w hwa)
      simp [hw, hwa]
  rw [hsub]
  refine List.length_filter_lt_length_iff_exists.mpr ⟨v.val, ?_, ?_⟩
  · simpa [Problem.unassigned] using v.property
  · simp [assign]

end Assignment.Over

open Assignment (Over)

/-! ## The recursive procedure -/

/-- Tries the values one after another until one of them does not fail. -/
def tryEach {a : Assignment V T} (v : P.Open a)
    (attempt : T → a.Over → World V T σ → Ending V T σ × a.Over) :
    List T → a.Over → World V T σ → Ending V T σ × a.Over
  | [], b, w => ((.ok .unsatisfiable, w), b.unassign v)
  | x :: xs, b, w =>
    match attempt x b w with
    | ((.ok .unsatisfiable, w), b) => tryEach v attempt xs b w
    | ((.ok .budgetExhausted, w), b) => ((.ok .budgetExhausted, w), b.unassign v)
    | found => found

variable [DecidableEq T]

/-- Undoes what a value has ruled out, unless a solution was found.  Only a failure counts as a
backtrack. -/
def backOut (P : Problem V T) (trail : Trail V T) : Ending V T σ → Ending V T σ
  | (.ok .unsatisfiable, w) =>
    match w.restore P trail with
    | (.error f, w) => (.error f, w)
    | (.ok _, w) => (.ok .unsatisfiable, w.countBacktrack)
  | (.ok .budgetExhausted, w) =>
    match w.restore P trail with
    | (.error f, w) => (.error f, w)
    | (.ok _, w) => (.ok .budgetExhausted, w)
  | found => found

mutual

/-- **Backtracking as a recursive procedure.**  It gives the answer, the world, and the assignment
that the call leaves behind. -/
def Backtracking.recurse (S : Backtracking P σ) (a : Assignment V T) (w : World V T σ) :
    Ending V T σ × a.Over :=
  if a.size = P.vars.length then ((.ok (.solved a), w), .refl a)
  else
    match w.context.poll with
    | (true, c) => ((.ok .budgetExhausted, ⟨w.state, c⟩), .refl a)
    | (false, c) =>
      match S.variableOrdering.select w.state a c.countNode with
      | (.error f, c) => ((.error f, ⟨w.state, c⟩), .refl a)
      | (.ok none, c) =>
        ((.error (.noVariableSelected S.variableOrdering.name a.size P.vars.length),
          ⟨w.state, c⟩), .refl a)
      | (.ok (some v), c) =>
        match S.valueOrdering.order w.state a v.val c with
        | (.error f, c) => ((.error f, ⟨w.state, c⟩), .refl a)
        | (.ok xs, c) => tryEach v (fun x b w => S.tryValue v x b w) xs (.refl a) ⟨w.state, c⟩
termination_by ((P.unassigned a).length, 1)

/-- Tries one value of a variable: skips it if it has a conflict, and otherwise assigns, supposes,
infers, and goes on from there. -/
def Backtracking.tryValue (S : Backtracking P σ) {a : Assignment V T} (v : P.Open a) (x : T)
    (b : a.Over) (w : World V T σ) : Ending V T σ × a.Over :=
  if P.conflicts b.val v.val x = 0 then
    match w.state.countAssign.suppose P v.val x with
    | (.error f, s) => ((.error f, { w with state := s }), b.assign v.val x)
    | (.ok trail, s) =>
      match S.inference.infer v.val x (b.assign v.val x).val ⟨{ w with state := s }, trail⟩ with
      | (.error f, t) => ((.error f, t.toWorld), b.assign v.val x)
      | (.ok .consistent, t) =>
        (backOut P t.trail (S.recurse (b.assign v.val x).val t.toWorld).1,
          (b.assign v.val x).weaken (S.recurse (b.assign v.val x).val t.toWorld).2)
      | (.ok .inconsistent, t) =>
        (backOut P t.trail (.ok .unsatisfiable, t.toWorld), b.assign v.val x)
      | (.ok .interrupted, t) =>
        (backOut P t.trail (.ok .budgetExhausted, t.toWorld), b.assign v.val x)
  else ((.ok .unsatisfiable, w), b)
termination_by ((P.unassigned a).length, 0)
decreasing_by all_goals exact Prod.Lex.left _ _ (Assignment.Over.unassigned_assign_lt b v x)

end

/-! ## What a call leaves behind -/

section Leaves

variable {a : Assignment V T}

/-- If nothing was found, the assignment is as it was. -/
def Leaves (r : Ending V T σ × a.Over) : Prop := r.1.Unsuccessful → r.2.val = a

/-- If nothing was found, the assignment is as it was, but for the value tried last. -/
def Keeps (v : V) (r : Ending V T σ × a.Over) : Prop := r.1.Unsuccessful → r.2.Tries v

omit [DecidableEq V] [DecidableEq T] in
lemma leaves_fault (f : Fault V T) (w : World V T σ) (b : a.Over) : Leaves ((.error f, w), b) :=
  fun h => absurd h (Ending.not_unsuccessful_fault w f)

lemma unsuccessful_of_backOut {trail : Trail V T} {ending : Ending V T σ}
    (h : (backOut P trail ending).Unsuccessful) : ending.Unsuccessful := by
  rcases ending with ⟨f | outcome, w⟩
  · exact h
  · cases outcome with
    | solved s => exact h
    | unsatisfiable => exact Ending.unsuccessful_unsatisfiable w
    | budgetExhausted => exact Ending.unsuccessful_budgetExhausted w

omit [DecidableEq T] in
lemma leaves_tryEach {v : P.Open a} {attempt : T → a.Over → World V T σ → Ending V T σ × a.Over}
    (hattempt : ∀ x b w, b.Tries v.val → Keeps v.val (attempt x b w)) (xs : List T) {b : a.Over}
    (hb : b.Tries v.val) (w : World V T σ) : Leaves (tryEach v attempt xs b w) := by
  induction xs generalizing b w with
  | nil => exact fun _ => hb.unassign_eq
  | cons x xs ih =>
    have hkeeps := hattempt x b w hb
    rw [tryEach]
    generalize attempt x b w = r at hkeeps ⊢
    rcases r with ⟨⟨f | outcome, w'⟩, d⟩
    · exact leaves_fault f w' d
    · cases outcome with
      | solved s => exact fun h => absurd h (Ending.not_unsuccessful_solved w' s)
      | unsatisfiable => exact ih (hkeeps (Ending.unsuccessful_unsatisfiable w')) w'
      | budgetExhausted =>
        exact fun _ => (hkeeps (Ending.unsuccessful_budgetExhausted w')).unassign_eq

end Leaves

mutual

/-- **A call that finds nothing leaves the assignment as it was.** -/
theorem Backtracking.leaves_recurse (S : Backtracking P σ) (a : Assignment V T)
    (w : World V T σ) : Leaves (S.recurse a w) := by
  rw [recurse]
  split
  · exact fun _ => rfl
  · split
    · exact fun _ => rfl
    · split
      · exact leaves_fault _ _ _
      · exact leaves_fault _ _ _
      · rename_i v c select
        split
        · exact leaves_fault _ _ _
        · rename_i xs c order
          exact leaves_tryEach (fun x b w hb => S.keeps_tryValue v x b w hb) xs
            (Over.tries_refl _) _
termination_by ((P.unassigned a).length, 1)

theorem Backtracking.keeps_tryValue (S : Backtracking P σ) {a : Assignment V T} (v : P.Open a)
    (x : T) (b : a.Over) (w : World V T σ) (hb : b.Tries v.val) :
    Keeps v.val (S.tryValue v x b w) := by
  have hassign : (b.assign v.val x).Tries v.val := by
    rw [hb.assign_eq]
    exact Over.tries_assign v.val x
  rw [tryValue]
  split
  · split
    · exact fun _ => hassign
    · split
      · exact fun _ => hassign
      · rename_i t infer
        intro h
        have hback : (b.assign v.val x).weaken (S.recurse (b.assign v.val x).val t.toWorld).2
            = b.assign v.val x :=
          Subtype.ext (S.leaves_recurse (b.assign v.val x).val t.toWorld
            (unsuccessful_of_backOut h))
        exact hback.symm ▸ hassign
      · exact fun _ => hassign
      · exact fun _ => hassign
  · exact fun _ => hb
termination_by ((P.unassigned a).length, 0)
decreasing_by exact Prod.Lex.left _ _ (Over.unassigned_assign_lt b v x)

end

/-! ## The value tried last -/

/-- What comes next if nothing was found. -/
def Ending.orElse (ending : Ending V T σ) (next : World V T σ → Ending V T σ) : Ending V T σ :=
  match ending with
  | (.ok .unsatisfiable, w) => next w
  | found => found

section Stale

variable {a : Assignment V T} (v : P.Open a)

omit [DecidableEq T] in
lemma tryEach_cons {attempt : T → a.Over → World V T σ → Ending V T σ × a.Over} {x : T}
    {xs : List T} {b : a.Over} {w : World V T σ} {next : World V T σ → Ending V T σ}
    (hkeeps : Keeps v.val (attempt x b w))
    (hnext : ∀ d : a.Over, d.Tries v.val → ∀ w, (tryEach v attempt xs d w).1 = next w) :
    (tryEach v attempt (x :: xs) b w).1 = (attempt x b w).1.orElse next := by
  rw [tryEach]
  generalize attempt x b w = r at hkeeps ⊢
  rcases r with ⟨⟨f | outcome, w'⟩, d⟩
  · rfl
  · cases outcome with
    | solved s => rfl
    | unsatisfiable => exact hnext d (hkeeps (Ending.unsuccessful_unsatisfiable w')) w'
    | budgetExhausted => rfl

variable (S : Backtracking P σ)

/-- How the values still to try end, whichever was tried last. -/
def Backtracking.rest (xs : List T) (w : World V T σ) : Ending V T σ :=
  (tryEach v (fun x b w => S.tryValue v x b w) xs (.refl a) w).1

/-- How a value fares does not depend on the value tried last. -/
lemma Backtracking.tryValue_of_tries {b : a.Over} (hb : b.Tries v.val) (x : T) (w : World V T σ) :
    (S.tryValue v x b w).1 = (S.tryValue v x (.refl a) w).1 := by
  rw [tryValue, tryValue, hb.conflicts, hb.assign_eq, (Over.tries_refl (a := a) v.val).conflicts]
  split
  · rfl
  · rfl

lemma Backtracking.tryEach_of_tries (xs : List T) {b : a.Over} (hb : b.Tries v.val)
    (w : World V T σ) :
    (tryEach v (fun x b w => S.tryValue v x b w) xs b w).1 = S.rest v xs w := by
  induction xs generalizing b w with
  | nil => rfl
  | cons x xs ih =>
    have hcons : ∀ d : a.Over, d.Tries v.val →
        (tryEach v (fun x b w => S.tryValue v x b w) (x :: xs) d w).1
          = (S.tryValue v x (.refl a) w).1.orElse (S.rest v xs) := by
      intro d hd
      rw [← S.tryValue_of_tries v hd]
      exact tryEach_cons v (S.keeps_tryValue v x d w hd) fun d hd w => ih hd w
    exact (hcons b hb).trans (hcons (.refl a) (Over.tries_refl v.val)).symm

lemma Backtracking.rest_cons (x : T) (xs : List T) (w : World V T σ) :
    S.rest v (x :: xs) w = (S.tryValue v x (.refl a) w).1.orElse (S.rest v xs) :=
  tryEach_cons v (S.keeps_tryValue v x (.refl a) w (Over.tries_refl v.val))
    fun _ hd w => S.tryEach_of_tries v xs hd w

end Stale

/-! ## The answer of a point -/

/-- What the calls that wait make of the ending of the topmost. -/
def Stack.resume (S : Backtracking P σ) :
    {a : Assignment V T} → Stack P a → Ending V T σ → Ending V T σ
  | _, .bottom, ending => ending
  | _, .push below v _ trail untried, ending =>
    below.resume S ((backOut P trail ending).orElse (S.rest v untried))

/-- The answer of a point: how the call that is made there ends for those that wait for it. -/
def Backtracking.answer (S : Backtracking P σ) : Point P → World V T σ → Ending V T σ
  | .node (a := a) stack, w => stack.resume S (S.recurse a w).1
  | .choice below v untried, w => below.resume S (S.rest v untried w)

section Answer

variable (S : Backtracking P σ) {a : Assignment V T}

/-- A fault is handed down at once. -/
lemma Stack.resume_fault (stack : Stack P a) (f : Fault V T) (w : World V T σ) :
    stack.resume S (.error f, w) = (.error f, w) := by
  induction stack with
  | bottom => rfl
  | push below v x trail untried ih => exact ih

/-- So is a solution. -/
lemma Stack.resume_solved (stack : Stack P a) (s : Assignment V T) (w : World V T σ) :
    stack.resume S (.ok (.solved s), w) = (.ok (.solved s), w) := by
  induction stack with
  | bottom => rfl
  | push below v x trail untried ih => exact ih

/-- Giving up is handed down from frame to frame, each undone on the way. -/
lemma Stack.resume_budgetExhausted (stack : Stack P a) (w : World V T σ) :
    stack.resume S (.ok .budgetExhausted, w) = stack.giveUp w := by
  induction stack generalizing w with
  | bottom => rfl
  | push below v x trail untried ih =>
    rw [resume, backOut, giveUp, unwind]
    rcases w.restore P trail with ⟨f | _, w'⟩
    · exact resume_fault S below f w'
    · exact ih w'

/-- What a step has led to, as an answer. -/
def Next.answer : Next P σ → Ending V T σ
  | .moves q w => S.answer q w
  | .ends ending => ending

lemma Backtracking.answer_stepNode (stack : Stack P a) (w : World V T σ) :
    (S.stepNode stack w).answer S = stack.resume S (S.recurse a w).1 := by
  rw [stepNode, recurse]
  split
  · exact (stack.resume_solved S a w).symm
  · rcases w.context.poll with ⟨_ | _, c⟩
    · dsimp only
      rw [branch]
      rcases S.variableOrdering.select w.state a c.countNode with ⟨f | _ | v, c'⟩
      · exact (stack.resume_fault S f _).symm
      · exact (stack.resume_fault S _ _).symm
      · dsimp only
        rcases S.valueOrdering.order w.state a v.val c' with ⟨f | xs, c''⟩
        · exact (stack.resume_fault S f _).symm
        · rfl
    · exact (stack.resume_budgetExhausted S _).symm

lemma Backtracking.answer_stepBack (stack : Stack P a) (w : World V T σ) :
    (stack.stepBack w).answer S = stack.resume S (.ok .unsatisfiable, w) := by
  cases stack with
  | bottom => rfl
  | push below v x trail untried =>
    rw [Stack.stepBack, Stack.resume, backOut]
    rcases w.restore P trail with ⟨f | _, w'⟩
    · exact (below.resume_fault S f w').symm
    · rfl

lemma Backtracking.answer_stepTry (below : Stack P a) (v : P.Open a) (x : T) (xs : List T)
    (w : World V T σ) :
    (S.stepTry below v x xs w).answer S = below.resume S (S.rest v (x :: xs) w) := by
  rw [rest_cons, stepTry, tryValue]
  by_cases hfree : P.conflicts a v.val x = 0
  · have hfree' : P.conflicts (Over.refl a).val v.val x = 0 := hfree
    rw [if_pos hfree, if_pos hfree']
    dsimp only [Over.refl, Over.assign]
    rcases w.state.countAssign.suppose P v.val x with ⟨f | trail, s⟩
    · exact (below.resume_fault S f _).symm
    · dsimp only
      rcases S.inference.infer v.val x (a.insert v.val x) ⟨{ w with state := s }, trail⟩
        with ⟨f | verdict, t⟩
      · exact (below.resume_fault S f _).symm
      · cases verdict with
        | consistent => rfl
        | inconsistent =>
          dsimp only
          rw [backOut]
          rcases t.toWorld.restore P t.trail with ⟨f | _, w'⟩
          · exact (below.resume_fault S f w').symm
          · rfl
        | interrupted =>
          dsimp only
          rw [backOut]
          rcases t.toWorld.restore P t.trail with ⟨f | _, w'⟩
          · exact (below.resume_fault S f w').symm
          · exact (below.resume_budgetExhausted S w').symm
  · have hfree' : P.conflicts (Over.refl a).val v.val x ≠ 0 := hfree
    rw [if_neg hfree, if_neg hfree']
    rfl

/-- **No step changes the answer.** -/
theorem Backtracking.answer_step (p : Point P) (w : World V T σ) :
    (S.step p w).answer S = S.answer p w := by
  cases p with
  | node stack => exact S.answer_stepNode stack w
  | choice below v untried =>
    cases untried with
    | nil => exact S.answer_stepBack below w
    | cons x xs => exact S.answer_stepTry below v x xs w

/-- **A run gives the answer of the point where it starts.** -/
theorem Backtracking.run_eq_answer (p : Point P) (w : World V T σ) : S.run p w = S.answer p w := by
  refine Backtracking.run_induction (I := fun q w' => S.answer q w' = S.answer p w)
    (R := fun ending => ending = S.answer p w) (fun q w' h => ?_) rfl
  have hstep := S.answer_step q w'
  rw [h] at hstep
  generalize S.step q w' = next at hstep ⊢
  cases next with
  | moves q' w'' => exact hstep
  | ends ending => exact hstep

end Answer

/-- **The search on a stack is the recursive search.**  Whatever the orderings, the inference and
the limit, both come to the same answer and leave the same domains, counters, random numbers and
limit behind. -/
theorem Backtracking.search_eq_recurse (S : Backtracking P σ) (w : World V T σ) :
    S.search w = (S.recurse .empty w).1 :=
  S.run_eq_answer (.node .bottom) w

end BinaryCsp
