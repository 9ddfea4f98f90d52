import BinaryCsp.Proofs.Search.Correctness
import BinaryCsp.Proofs.Search.Step

/-!
# A search that finds nothing leaves nothing behind

The trails of all frames together, from the bottom up, hold what the search has taken out of the
domains so far (`Stack.outstanding`): between two steps the domains have lost exactly that since the
start.  Trying a value adds its trail at the end, and a trail that is undone is always the last one.
So when the search ends without a solution, with no frame left or all of them undone, nothing is
lost (`restored_run`).

This asks nothing of the orderings and the limit, and of the inference only that it notes what it
takes (`Inference.Notes`).
-/

namespace BinaryCsp

variable {V T σ : Type} [DecidableEq V] {P : Problem V T}

/-! ## What a search owes -/

/-- All that the frames have taken out of the domains, in the order in which it was taken. -/
def Stack.outstanding : {a : Assignment V T} → Stack P a → Trail V T
  | _, .bottom => []
  | _, .push below _ _ trail _ => below.outstanding ++ trail

def Point.outstanding : Point P → Trail V T
  | .node stack => stack.outstanding
  | .choice below _ _ => below.outstanding

variable [DecidableEq T]

lemma World.choices_of_restore {w w' : World V T σ} {t : Trail V T}
    (h : w.restore P t = (.ok (), w')) (v : V) :
    w'.state.choices P v = w.state.choices P v ++ Trail.valuesOf t v := by
  rcases hrestore : w.state.restore P t with ⟨answer, s⟩
  rw [World.restore, hrestore] at h
  cases h
  exact State.choices_of_restore hrestore v

section Lost

variable {s₀ : State V T} {a : Assignment V T}

/-- A trail that is undone is no longer owed. -/
lemma World.loses_of_restore {w w' : World V T σ} {d t : Trail V T}
    (hrestore : w.restore P t = (.ok (), w')) (h : s₀.Loses P w.state (d ++ t)) :
    s₀.Loses P w'.state d :=
  h.undo (World.choices_of_restore hrestore)

/-- Undoing all frames gives back all that is outstanding. -/
lemma Stack.loses_unwind {stack : Stack P a} {w w' : World V T σ}
    (h : s₀.Loses P w.state stack.outstanding) (hok : stack.unwind w = (.ok (), w')) :
    s₀.Loses P w'.state [] := by
  induction stack generalizing w with
  | bottom =>
    cases hok
    exact h
  | push below v x trail untried ih =>
    rcases hrestore : w.restore P trail with ⟨answer, w₁⟩
    rw [Stack.unwind, hrestore] at hok
    cases answer with
    | error f => cases hok
    | ok _ => exact ih (World.loses_of_restore hrestore h) hok

/-- What is known of an ending: without a solution and without a fault, nothing is lost. -/
def Restored (P : Problem V T) (s₀ : State V T) (ending : Ending V T σ) : Prop :=
  ending.Unsuccessful → s₀.Loses P ending.2.state []

omit [DecidableEq T] in
lemma restored_fault (f : Fault V T) (w : World V T σ) : Restored P s₀ (.error f, w) :=
  fun h => absurd h (Ending.not_unsuccessful_fault w f)

lemma restored_giveUp {stack : Stack P a} {w : World V T σ}
    (h : s₀.Loses P w.state stack.outstanding) : Restored P s₀ (stack.giveUp w) := by
  rcases stack.giveUp_cases w with ⟨w', hunwind, heq⟩ | ⟨f, w', heq⟩
  · rw [heq]
    exact fun _ => Stack.loses_unwind h hunwind
  · rw [heq]
    exact restored_fault f w'

/-- Trying a value takes out what its trail holds, if its domain lists no value twice. -/
lemma Tried.loses {S : Backtracking P σ} (hS : S.inference.Notes) {v : P.Open a} {x : T}
    {w : World V T σ} {verdict : Verdict} {t : Trial V T σ} (h : Tried S v x w verdict t)
    (hnd : (w.state.choices P v.val).Nodup) : w.state.Loses P t.state t.trail := by
  obtain ⟨trail, s, hsuppose, hinfer⟩ := h.inferred
  obtain ⟨hloses, -⟩ := State.loses_suppose (s := w.state.countAssign) hnd hsuppose
  obtain ⟨d, htrail, hloses', -⟩ :=
    hS v.val x (a.insert v.val x) ⟨{ w with state := s }, trail⟩
  rw [hinfer] at htrail hloses'
  dsimp only at htrail
  rw [htrail]
  exact State.Loses.trans (s := w.state) hloses hloses'

/-! ## Steps -/

variable {S : Backtracking P σ} (hS : S.inference.Notes)
  (hnd : ∀ v ∈ P.vars, (s₀.choices P v).Nodup)

include hS hnd in
/-- **One step.**  If it moves, what is outstanding is again what the domains have lost; if it ends
without a solution and without a fault, it has given everything back. -/
theorem loses_step {p : Point P} {w : World V T σ} (h : s₀.Loses P w.state p.outstanding) :
    (S.step p w).Meets (fun q w' => s₀.Loses P w'.state q.outstanding) (Restored P s₀) := by
  have hcases := pointStep S p w
  generalize S.step p w = next at hcases ⊢
  cases hcases with
  | node step =>
    cases step with
    | complete size => exact fun h => absurd h (Ending.not_unsuccessful_solved w _)
    | stop size poll => exact restored_giveUp h
    | fault f c => exact restored_fault f _
    | branch size poll select order => exact h
  | back step =>
    cases step with
    | unsatisfiable => exact fun _ => h
    | fault _ f w' => exact restored_fault f w'
    | resume restore => exact (World.loses_of_restore restore h :)
  | @attempt _ _ v _ _ _ step =>
    have hv : (w.state.choices P v.val).Nodup := State.Loses.nodup h (hnd v.val v.property.1)
    cases step with
    | conflict conflicts => exact h
    | fault f w' => exact restored_fault f w'
    | descend tried => exact h.trans (tried.loses hS hv)
    | undo tried restore =>
      exact (World.loses_of_restore restore (h.trans (tried.loses hS hv)) :)
    | stop tried restore =>
      exact restored_giveUp (World.loses_of_restore restore (h.trans (tried.loses hS hv)))

include hS hnd in
/-- **A run that ends without a solution and without a fault has given everything back.** -/
theorem restored_run {p : Point P} {w : World V T σ} (h : s₀.Loses P w.state p.outstanding) :
    Restored P s₀ (S.run p w) :=
  Backtracking.run_induction (fun _ _ h => loses_step hS hnd h) h

end Lost

/-! ## Whole searches -/

section Conclude

variable (search : String) (before : Nat) (ending : Ending V T σ)

omit [DecidableEq T] in
@[simp] lemma state_conclude : (conclude P search before ending).2.state = ending.2.state := by
  rcases ending with ⟨f | outcome, w⟩
  · rfl
  · cases outcome with
    | solved a =>
      rw [conclude]
      dsimp only
      split <;> rfl
    | unsatisfiable => rfl
    | budgetExhausted => rfl

omit [DecidableEq T] in
/-- The final test refuses solutions only, and with one fault only. -/
lemma conclude_cases :
    (conclude P search before ending).1 = ending.1 ∨
      (∃ b, ending.1 = .ok (.solved b) ∧ P.goalTest b = false) ∧
        (conclude P search before ending).1 = .error (.unsoundSolution search) := by
  rcases ending with ⟨f | outcome, w⟩
  · exact Or.inl rfl
  · cases outcome with
    | solved b =>
      by_cases htest : P.goalTest b = true
      · exact Or.inl (by rw [conclude]; simp only [htest, if_true])
      · rw [Bool.not_eq_true] at htest
        exact Or.inr ⟨⟨b, rfl, htest⟩, by rw [conclude]; simp only [htest]; rfl⟩
    | unsatisfiable => exact Or.inl rfl
    | budgetExhausted => exact Or.inl rfl

omit [DecidableEq T] in
/-- An outcome is handed on if it is no solution or passes the final test. -/
lemma conclude_of_passes {outcome : Outcome V T} {w : World V T σ}
    (h : ∀ b, outcome = .solved b → P.goalTest b = true) :
    conclude P search before (.ok outcome, w) = (.ok outcome, { w with
      context := w.context.count fun n =>
        { n with assignments := n.assignments + (w.state.assigns - before) } }) := by
  cases outcome with
  | solved b => exact if_pos (h b rfl)
  | unsatisfiable => rfl
  | budgetExhausted => rfl

omit [DecidableEq T] in
/-- A solution that is reported has passed the final test. -/
lemma solved_of_conclude {b : Assignment V T}
    (h : (conclude P search before ending).1 = .ok (.solved b)) :
    ending.1 = .ok (.solved b) ∧ P.goalTest b = true := by
  rcases conclude_cases (P := P) search before ending with hsame | ⟨-, hfault⟩
  · have hending := hsame.symm.trans h
    refine ⟨hending, ?_⟩
    by_contra htest
    rcases ending with ⟨answer, w⟩
    obtain rfl : answer = .ok (.solved b) := hending
    simp only [conclude, htest] at h
    cases h
  · cases hfault.symm.trans h

omit [DecidableEq T] in
/-- **What the end of a search adds**: an outcome is handed on, and the assignments made since the
start are counted. -/
lemma eq_of_conclude {outcome : Outcome V T} {w' : World V T σ}
    (h : conclude P search before ending = (.ok outcome, w')) :
    ending.1 = .ok outcome ∧ w' = { ending.2 with
      context := ending.2.context.count fun n =>
        { n with assignments := n.assignments + (ending.2.state.assigns - before) } } := by
  rcases ending with ⟨f | outcome', w⟩
  · cases h
  · cases outcome' with
    | solved a =>
      rw [conclude] at h
      split at h
      · cases h
        exact ⟨rfl, rfl⟩
      · cases h
    | unsatisfiable =>
      cases h
      exact ⟨rfl, rfl⟩
    | budgetExhausted =>
      cases h
      exact ⟨rfl, rfl⟩

omit [DecidableEq T] in
lemma unsuccessful_of_conclude (h : (conclude P search before ending).Unsuccessful) :
    ending.Unsuccessful := by
  rcases conclude_cases (P := P) search before ending with hsame | ⟨-, hfault⟩
  · exact h.imp hsame.symm.trans hsame.symm.trans
  · rcases h with h | h <;> cases hfault.symm.trans h

end Conclude

/-- **A search without success leaves the problem as it found it.**  Whatever the orderings and the
limit, and whatever the inference as long as it notes on its trail all that it takes out of the
domains: if a search from choices that list no value twice ends without a solution, or is given up
at any point, then every variable has the choices it had before, up to order.  All else that a
problem is made of no search can change. -/
theorem Backtracking.unsuccessful_solve_restores (S : Backtracking P σ) (hS : S.inference.Notes)
    (w : World V T σ) (hnd : ∀ v ∈ P.vars, (w.state.choices P v).Nodup)
    (hend : (S.toStrategy.solve w).Unsuccessful) (v : V) :
    ((S.toStrategy.solve w).2.state.choices P v).Perm (w.state.choices P v) := by
  have hrun : Restored P w.state (S.search w) :=
    restored_run hS hnd (p := .node .bottom) (State.Loses.nil w.state)
  have hback := hrun (unsuccessful_of_conclude _ _ (S.search w) hend) v
  rw [Trail.valuesOf_nil, List.append_nil] at hback
  rw [show (S.toStrategy.solve w).2.state = (S.search w).2.state from state_conclude _ _ _]
  exact hback

/-- Two numbers in ascending order under forward checking.  The search tries the three, finds that
it goes with no value of the second number, tries the one, and is given up there: the values are
back, in the order in which they were undone.  Without the one the search ends since there is no
solution. -/
theorem Backtracking.unsuccessful_solve_restores_ascending :
    let P := fun xs => Problem.ascending xs [2, 3]
    let S : (xs : List Nat) → Backtracking (P xs) Unit := fun xs =>
      Options.backtracking { Options.standard with inference := .forwardChecking } (P xs)
    let w : World Bool Nat Unit :=
      ⟨.initial, { Context.seeded 0 () with limit := .decisions 1 0 }⟩
    (∀ xs, (S xs).inference.Notes) ∧ (∀ xs ∈ [[3, 1], [3]],
        ∀ v ∈ (P xs).vars, (w.state.choices (P xs) v).Nodup) ∧
      ((S [3, 1]).toStrategy.solve w).1 = .ok .budgetExhausted ∧
      ((S [3, 1]).toStrategy.solve w).2.state.choices (P [3, 1]) false = [1, 3] ∧
      ((S [3]).toStrategy.solve w).1 = .ok .unsatisfiable ∧
      ∀ xs ∈ [[3, 1], [3]], ∀ v,
        (((S xs).toStrategy.solve w).2.state.choices (P xs) v).Perm ((P xs).domain v) := by
  intro P S w
  have hnotes : ∀ xs, (S xs).inference.Notes := fun xs =>
    (Options.sound_backtracking _ (P xs)).infers.notes
  have hnd : ∀ xs ∈ [[3, 1], [3]], ∀ v ∈ (P xs).vars, (w.state.choices (P xs) v).Nodup := by decide
  have hstopped : ((S [3, 1]).toStrategy.solve w).1 = .ok .budgetExhausted :=
    (S [3, 1]).read_search w
      (fun ending => (conclude (P _) "backtracking search" 0 ending).1) 9 (by decide +kernel)
  have hfailed : ((S [3]).toStrategy.solve w).1 = .ok .unsatisfiable :=
    (S [3]).read_search w
      (fun ending => (conclude (P _) "backtracking search" 0 ending).1) 9 (by decide +kernel)
  have hback : ((S [3, 1]).toStrategy.solve w).2.state.choices (P [3, 1]) false = [1, 3] :=
    (S [3, 1]).read_search w
      (fun ending => (conclude (P _) "backtracking search" 0 ending).2.state.choices (P _) false) 9
      (by decide +kernel)
  refine ⟨hnotes, hnd, hstopped, hback, hfailed, fun xs hxs v => ?_⟩
  refine (S xs).unsuccessful_solve_restores (hnotes xs) w (hnd xs hxs) ?_ v
  simp only [List.mem_cons, List.not_mem_nil, or_false] at hxs
  rcases hxs with rfl | rfl
  · exact Or.inr hstopped
  · exact Or.inl hfailed

end BinaryCsp
