import BinaryCsp.Proofs.Search.Correctness
import BinaryCsp.Proofs.Search.Restoration

/-!
# No search fails

Whatever the limit, a search with sound parts whose inference answers (`Inference.Answers`) ends
with an outcome.  The invariant is that its frames lead back to the start (`Point.Undoable`): then
each trail, when its turn comes, holds no value that stands in a domain, and so it can be put back,
one frame after the other, also when the search gives up (`Stack.giveUp_eq_ok`).

This rests on starting choices that list no value twice.  A supposition takes all copies of the
other values out and leaves one copy of its own; what its trail holds twice can not be put back
twice (`Options.repeated_values_fault`).
-/

namespace BinaryCsp

variable {V T σ : Type} [DecidableEq V] {P : Problem V T}

/-! ## Inferences that answer -/

/-- From a declared variable there is a verdict, whatever the limit. -/
def Inference.Answers (rule : Inference P σ) : Prop :=
  ∀ v x a (t : Trial V T σ), v ∈ P.vars → ∃ verdict, (rule.infer v x a t).1 = .ok verdict

lemma Inference.answers_none : (Inference.none P : Inference P σ).Answers :=
  fun _ _ _ _ _ => ⟨.consistent, rfl⟩

lemma Inference.answers_forwardChecking : (forwardChecking P : Inference P σ).Answers := by
  intro v x a t hv
  simp only [forwardChecking, neighbors?_eq_ok hv]
  exact ⟨_, rfl⟩

lemma Inference.answers_arcConsistency [DecidableEq T] (how : Propagator V T) :
    (arcConsistency P how : Inference P σ).Answers := by
  intro v x a t hv
  have hF : P.MutuallySupported fun _ (_ : T) => False := fun _ _ _ _ h => h.elim
  obtain ⟨-, ⟨verdict, hverdict⟩, -⟩ := how.keeps_supported P t.state (onNeighbors_map v)
    (some t.trail) t.context.limit hF (fun _ _ h => h.elim)
  simp only [arcConsistency, neighbors?_eq_ok hv, hverdict]
  exact ⟨verdict, rfl⟩

/-- **Every inference of the library answers.** -/
lemma Inference.BuiltIn.answers [DecidableEq T] {rule : Inference P σ} (h : rule.BuiltIn) :
    rule.Answers := by
  cases h with
  | none => exact answers_none
  | forwardChecking => exact answers_forwardChecking
  | arcConsistency how => exact answers_arcConsistency how

/-- **The inference of every combination of options answers.** -/
theorem Options.answers_inference [DecidableEq T] (o : Options) (P : Problem V T) :
    (o.backtracking P : Backtracking P σ).inference.Answers :=
  (o.builtIn_inference P).answers

/-! ## Frames that can be undone -/

/-- An ending without a fault. -/
def Ending.Answered (ending : Ending V T σ) : Prop := ∃ outcome, ending.1 = .ok outcome

/-- The frames of a point lead back to the start. -/
def Point.Undoable (start : V → List T) (p : Point P) (w : World V T σ) : Prop :=
  p.Level start (w.state.current ≠ none) (w.state.choices P)

variable [DecidableEq T] {start : V → List T} (hstart : ∀ v, (start v).Nodup)

section Steps

variable {S : Backtracking P σ} {a : Assignment V T} {w : World V T σ}

include hstart in
/-- Frames that lead back to the start can all be undone, the topmost first. -/
lemma Stack.giveUp_eq_ok {stack : Stack P a} (h : (Point.node stack).Undoable start w) :
    ∃ w', stack.giveUp w = (.ok .budgetExhausted, w') := by
  suffices hunwind : ∃ w', stack.unwind w = (.ok (), w') by
    obtain ⟨w', hunwind⟩ := hunwind
    exact ⟨w', by rw [giveUp, hunwind]⟩
  induction stack generalizing w with
  | bottom => exact ⟨w, rfl⟩
  | push below v x trail untried ih =>
    obtain ⟨hmade, hdecl, -, -, hbelow⟩ := h
    obtain ⟨w', hrestore, -, hmade', hchoices⟩ :=
      World.restore_eq_ok hmade hdecl (hbelow.nodup hstart)
    obtain ⟨w'', hrest⟩ := ih (w := w') (by
      show below.Level start _ (w'.state.choices P)
      rw [hchoices]
      exact hbelow.imp fun _ => hmade')
    exact ⟨w'', by rw [unwind, hrestore]; exact hrest⟩

/-- **A value of its domain can be tried.**  The inference comes to a verdict, and the trail holds
what is gone, of declared variables only. -/
lemma exists_tried (hS : S.Sound) (hanswers : S.inference.Answers) {v : P.Open a} {x : T}
    (hnd : ∀ u, (w.state.choices P u).Nodup) (hx : x ∈ w.state.choices P v.val) :
    ∃ trail s verdict t, w.state.countAssign.suppose P v.val x = (.ok trail, s) ∧
      S.inference.infer v.val x (a.insert v.val x) ⟨{ w with state := s }, trail⟩ =
        (.ok verdict, t) ∧
      t.state.current ≠ none ∧ w.state.Loses P t.state t.trail ∧ ∀ e ∈ t.trail, e.1 ∈ P.vars := by
  obtain ⟨trail, s, hsuppose, hloses, hmade, hchoices⟩ :=
    State.exists_suppose (s := w.state.countAssign) v.property.1 (hnd v.val) hx
  rcases hinfer : S.inference.infer v.val x (a.insert v.val x) ⟨{ w with state := s }, trail⟩ with
    ⟨answer, t⟩
  obtain ⟨verdict, hverdict⟩ := hanswers v.val x (a.insert v.val x)
    ⟨{ w with state := s }, trail⟩ v.property.1
  obtain ⟨d, htrail, hloses', hcur⟩ := hS.infers.notes v.val x (a.insert v.val x)
    ⟨{ w with state := s }, trail⟩
  have hkept := (hS.infers.keeps (Problem.mutuallySupported_undeclared w.state) v.val x
    (a.insert v.val x) ⟨{ w with state := s }, trail⟩ v.property.1
    (fun _ hz => absurd v.property.1 hz.1) fun u y hy => by
      show y ∈ s.choices P u
      rw [hchoices, if_neg]
      · exact hy.2
      · rintro rfl
        exact hy.1 v.property.1).1
  rw [hinfer] at hverdict htrail hloses' hcur hkept
  have hlost : w.state.Loses P t.state t.trail := by
    rw [show t.trail = trail ++ d from htrail]
    exact State.Loses.trans (s := w.state) hloses hloses'
  dsimp only at hverdict
  subst hverdict
  exact ⟨trail, s, verdict, t, hsuppose, hinfer, fun h => hmade (hcur h).1, hlost,
    hlost.declared hnd fun u hu y hy => hkept u y ⟨hu, hy⟩⟩

variable (hS : S.Sound)

include hstart hS in
lemma undoable_stepNode {stack : Stack P a} (h : (Point.node stack).Undoable start w) :
    (S.stepNode stack w).Meets (fun q w' => q.Undoable start w') Ending.Answered := by
  rw [Backtracking.stepNode]
  split
  · exact ⟨_, rfl⟩
  · rename_i size
    split
    · obtain ⟨w', hgiveUp⟩ : ∃ w', stack.giveUp ⟨w.state, w.context.poll.2⟩
          = (.ok .budgetExhausted, w') := Stack.giveUp_eq_ok hstart h
      rename_i c poll
      rw [poll] at hgiveUp
      rw [hgiveUp]
      exact ⟨_, rfl⟩
    · obtain ⟨v, xs, c', hbranch, hxs, -⟩ := branch_eq_moves hS stack w.state _
        (exists_open (Stack.Level.assignment h).2 size)
      rw [hbranch]
      exact ⟨hxs.subset, h⟩

include hstart in
lemma undoable_stepBack {stack : Stack P a} {v : P.Open a}
    (h : (Point.choice stack v []).Undoable start w) :
    (stack.stepBack w).Meets (fun q w' => q.Undoable start w') Ending.Answered := by
  cases stack with
  | bottom => exact ⟨_, rfl⟩
  | push below u x trail untried =>
    obtain ⟨-, hmade, hdecl, -, huntried, hbelow⟩ := h
    obtain ⟨w', hrestore, -, hmade', hchoices⟩ :=
      World.restore_eq_ok hmade hdecl (hbelow.nodup hstart)
    rw [Stack.stepBack, hrestore]
    show untried ⊆ w'.state.choices P u.val ∧ below.Level start _ (w'.state.choices P)
    rw [hchoices]
    exact ⟨huntried, hbelow.imp fun _ => hmade'⟩

include hstart hS in
lemma undoable_stepTry (hanswers : S.inference.Answers) {below : Stack P a} {v : P.Open a} {x : T}
    {xs : List T} (h : (Point.choice below v (x :: xs)).Undoable start w) :
    (S.stepTry below v x xs w).Meets (fun q w' => q.Undoable start w') Ending.Answered := by
  rw [Backtracking.stepTry]
  split
  · obtain ⟨trail, s, verdict, t, hsuppose, hinfer, hmade, hlost, hdecl⟩ :=
      exists_tried hS hanswers (h.2.nodup hstart) (h.1 List.mem_cons_self)
    obtain ⟨hvalues, hlevel⟩ := h.onto hlost fun _ => hmade
    obtain ⟨w', hrestore, -, hmade', hchoices⟩ :=
      World.restore_eq_ok (w := t.toWorld) hmade hdecl (hlevel.nodup hstart)
    have hrest : xs ⊆ w'.state.choices P v.val ∧
        below.Level start (w'.state.current ≠ none) (w'.state.choices P) := by
      rw [hchoices]
      exact ⟨fun y hy => hvalues (List.mem_cons_of_mem x hy), hlevel.imp fun _ => hmade'⟩
    simp only [hsuppose, hinfer]
    cases verdict with
    | consistent =>
      exact ⟨hmade, hdecl, hvalues List.mem_cons_self,
        fun y hy => hvalues (List.mem_cons_of_mem x hy), hlevel⟩
    | inconsistent =>
      simp only [hrestore]
      exact hrest
    | interrupted =>
      obtain ⟨w'', hgiveUp⟩ : ∃ w'', below.giveUp w' = (.ok .budgetExhausted, w'') :=
        Stack.giveUp_eq_ok hstart hrest.2
      simp only [hrestore, hgiveUp]
      exact ⟨_, rfl⟩
  · exact ⟨fun y hy => h.1 (List.mem_cons_of_mem x hy), h.2⟩

end Steps

/-! ## Runs -/

section Runs

variable {S : Backtracking P σ} (hS : S.Sound) (hanswers : S.inference.Answers)

include hstart hS hanswers in
/-- **A search without repeated values ends with an outcome**, whatever the limit. -/
theorem answered_run {p : Point P} {w : World V T σ} (h : p.Undoable start w) :
    (S.run p w).Answered := by
  refine Backtracking.run_induction (I := fun q w' => q.Undoable start w') (fun q w' hq => ?_) h
  cases q with
  | node stack => exact undoable_stepNode hstart hS hq
  | choice below v untried =>
    cases untried with
    | nil => exact undoable_stepBack hstart hq
    | cons x xs => exact undoable_stepTry hstart hS hanswers hq

end Runs

/-- **No value is put back twice.**  Whatever the predicate, the combination of options, and the
limit, a search from choices that list no value twice comes to an outcome.  All that can still go
wrong is the final test of a solution. -/
theorem Options.backtracking_answers (o : Options) (P : Problem V T) (w : World V T σ)
    (hnd : ∀ v, (w.state.choices P v).Nodup) :
    (∃ outcome, ((o.backtracking P).search w).1 = .ok outcome) ∧
      ∀ f, ((o.backtracking P).toStrategy.solve w).1 = .error f →
        f = .unsoundSolution "backtracking search" := by
  have hundoable : (Point.node (Stack.bottom : Stack P _)).Undoable (w.state.choices P) w :=
    fun v => .refl _
  obtain ⟨outcome, houtcome⟩ :=
    answered_run hnd (o.sound_backtracking P) (o.answers_inference P) hundoable
  refine ⟨⟨outcome, houtcome⟩, fun f hf => ?_⟩
  rcases conclude_cases (P := P) "backtracking search" w.state.assigns
    ((o.backtracking P).search w) with hsame | ⟨-, hunsound⟩
  · cases houtcome.symm.trans (hsame.symm.trans hf)
  · exact (Except.error.inj (hunsound.symm.trans hf)).symm

/-- Two numbers in ascending order, with a budget of one decision. -/
theorem Options.backtracking_answers_ascending :
    let P := Problem.ascending [1, 2, 3] [2, 3]
    let w : World Bool Nat Unit := ⟨.initial, { Context.seeded 0 () with limit := .decisions 1 0 }⟩
    (∀ v, (w.state.choices P v).Nodup) ∧
      ∃ outcome, ((standard.backtracking P).search w).1 = .ok outcome := by
  intro P w
  have hnd : ∀ v, (w.state.choices P v).Nodup := by decide
  exact ⟨hnd, (standard.backtracking_answers P w hnd).1⟩

/-- A domain that lists `2` twice, next to one without a partner for `1`: after `1` was tried both
copies of `2` are on its trail, and putting back the second one is a breach. -/
theorem Options.repeated_values_fault :
    let P := Problem.pair [1, 2, 2] [1] (.notEqual : Constraint Bool Nat)
    let w : World Bool Nat Unit := ⟨.initial, .seeded 0 ()⟩
    P.Symmetric ∧
      ((standard.backtracking P).toStrategy.solve w).1 = .error (.restoredTwice false 2) := by
  intro P w
  have hsym : P.Symmetric := fun v w _ x y => congrArg not (decide_eq_decide.mpr eq_comm)
  have hfault : ((standard.backtracking P).search w).1 = .error (.restoredTwice false 2) := by
    -- `false` takes `1`, which leaves `true` without a value
    rw [Backtracking.search, Backtracking.run_of_moves rfl, Backtracking.run_of_moves rfl,
      Backtracking.run_of_moves rfl, Backtracking.run_of_moves rfl, Backtracking.run_of_ends rfl]
  refine ⟨hsym, ?_⟩
  rcases conclude_cases (P := P) "backtracking search" w.state.assigns
    ((standard.backtracking P).search w) with hsame | ⟨⟨b, hsolved, -⟩, -⟩
  · exact hsame.trans hfault
  · cases hsolved.symm.trans hfault

end BinaryCsp
