import BinaryCsp.Proofs.Search.Counters
import BinaryCsp.Proofs.Search.Nodes

/-!
# A solved problem is pinned to its solution

A search that has found a solution leaves the domains as they are at a node where every variable is
assigned, and there each of them is down to one value (`Backtracking.Reached.currentDomain?_eq_ok`).
So the solution can be read off the domains (`State.get?_inferAssignment_iff`).

From such domains a sound search goes straight to the solution, whatever its orderings and its
inference (`retraces_step`).  The one value of a variable has no conflict, since the solution has
passed the goal test; and no inference comes to a contradiction, since it keeps what the solution
needs (`Attempt.within`).  Every variable is assigned once, and nothing is taken back.
-/

namespace BinaryCsp

variable {V T σ : Type} [DecidableEq V] {P : Problem V T}

/-! ## Reading an assignment off the domains -/

/-- A value is read off for a variable whose list holds that value and nothing else; the other
variables of the list change nothing about it. -/
lemma get?_foldl_sole (L : V → List T) (vs : List V) (a : Assignment V T) (v : V) (x : T) :
    (vs.foldl (fun a v => match L v with
        | [x] => a.insert v x
        | _ => a) a).get? v = some x
      ↔ (v ∈ vs ∧ L v = [x]) ∨ (a.get? v = some x ∧ (v ∈ vs → ∀ y, L v ≠ [y])) := by
  induction vs generalizing a with
  | nil => simp
  | cons u us ih =>
    rw [List.foldl_cons, ih]
    split
    · rename_i y hy
      rw [PartialMap.get?_insert]
      by_cases hu : u = v
      · subst hu
        by_cases hmem : u ∈ us
        · simp [hy, hmem]
        · simp [hy, hmem]
      · simp [hu, Ne.symm hu]
    · rename_i hnone
      by_cases hu : u = v
      · subst hu
        have hno : ∀ y, L u ≠ [y] := hnone
        simp [hno]
      · simp [Ne.symm hu]

/-- **The assignment that propagation implies** gives a value to the declared variables that are
down to it. -/
theorem State.get?_inferAssignment_iff (s : State V T) (v : V) (x : T) :
    (s.inferAssignment P).1.get? v = some x ↔ v ∈ P.vars ∧ s.choices P v = [x] := by
  refine (get?_foldl_sole (s.choices P) P.vars .empty v x).trans ?_
  simp

/-! ## Going straight to a solution -/

lemma Assignment.Agrees.get?_eq {a b : Assignment V T} (h : a.Agrees b) (hsub : ∀ v ∈ b, v ∈ a)
    (v : V) : a.get? v = b.get? v := by
  cases hv : a.get? v with
  | some x => exact (h v x hv).symm
  | none =>
    have hout : v ∉ b := fun hb => PartialMap.get?_eq_none_iff.mp hv (hsub v hb)
    exact (PartialMap.get?_eq_none_iff.mpr hout).symm

section Retrace

variable [DecidableEq T] {S : Backtracking P σ} {start : V → List T} {b : Assignment V T}

/-- A choice that waits has the value of the solution to try, and nothing else. -/
def Point.Heads (b : Assignment V T) : Point P → Prop
  | .node _ => True
  | .choice _ v untried => ∃ x, b.get? v.val = some x ∧ untried = [x]

/-- A search is on its way to a solution that the domains are down to: it has assigned values of the
solution only, each once, and has taken nothing back since its start in the world `w₀`. -/
structure Retraces (b : Assignment V T) (w₀ : World V T σ) (p : Point P) (w : World V T σ) :
    Prop where
  limit : w.context.limit = .never
  agrees : p.assignment.Agrees b
  sole : b.Sole (w.state.choices P)
  heads : p.Heads b
  assigns : w.state.assigns = w₀.state.assigns + p.assignment.size
  assignments : w.context.stats.assignments = w₀.context.stats.assignments
  backtracks : w.context.stats.backtracks = w₀.context.stats.backtracks

/-- A search that set out in the world `w₀` has ended with the solution, has assigned every variable
once, and has taken nothing back. -/
structure Retraced (P : Problem V T) (b : Assignment V T) (w₀ : World V T σ)
    (ending : Ending V T σ) : Prop where
  solved : ∃ b', ending.1 = .ok (.solved b') ∧ ∀ v, b'.get? v = b.get? v
  assigns : ending.2.state.assigns = w₀.state.assigns + P.vars.length
  assignments : ending.2.context.stats.assignments = w₀.context.stats.assignments
  backtracks : ending.2.context.stats.backtracks = w₀.context.stats.backtracks

variable {w₀ w : World V T σ}

omit [DecidableEq T] in
/-- A list that keeps one of its values, when it had no other, has lost nothing. -/
lemma eq_singleton_of_append_perm {l r : List T} {x : T} (h : (l ++ r).Perm [x]) (hx : x ∈ l) :
    l = [x] := by
  rcases List.append_eq_singleton_iff.mp (List.perm_singleton.mp h) with ⟨hnil, -⟩ | ⟨hl, -⟩
  · rw [hnil] at hx
    cases hx
  · exact hl

/-- From a node the search turns to the value of the solution, unless it has them all. -/
lemma retraces_stepNode (hS : S.Sound) (hcounts : S.LeavesCounts) (hb : P.IsSolution start b)
    {a : Assignment V T} {stack : Stack P a} (h : Retraces b w₀ (.node stack) w) :
    (S.stepNode stack w).Meets (Retraces b w₀) (Retraced P b w₀) := by
  by_cases hsize : a.size = P.vars.length
  · have hmem := Problem.mem_iff_of_size_eq hsize (Or.inl stack.declared)
    rw [Backtracking.stepNode, if_pos hsize]
    refine ⟨⟨a, rfl, h.agrees.get?_eq fun v hv => ?_⟩, ?_, h.assignments, h.backtracks⟩
    · exact (hmem v).mpr ((hb.declared v).mp hv)
    · rw [← hsize]
      exact h.assigns
  · obtain ⟨v, xs, c', hbranch, hxs, hlimit⟩ := branch_eq_moves hS stack w.state
      (Context.countNode { w.context with limit := .never }) (exists_open stack.declared hsize)
    have hstats := Backtracking.stats_of_branch hcounts hbranch
    have hstep : S.stepNode stack w = .moves (.choice stack v xs) ⟨w.state, c'⟩ := by
      rw [Backtracking.stepNode, if_neg hsize]
      simp only [Context.poll, h.limit, Limit.poll, hbranch]
    obtain ⟨x, hx⟩ := hb.exists_value v.property.1
    rw [hstep]
    refine ⟨hlimit, h.agrees, h.sole, ⟨x, hx, ?_⟩, h.assigns, ?_, ?_⟩
    · exact List.perm_singleton.mp (h.sole v.val x hx ▸ hxs)
    · exact (congrArg Stats.assignments hstats).trans h.assignments
    · exact (congrArg Stats.backtracks hstats).trans h.backtracks

/-- **The value of a solution is tried with success**, and takes nothing of the solution away. -/
lemma exists_tried_of_solution (hS : S.Sound) (hb : P.IsSolution start b) {a : Assignment V T}
    (hagrees : a.Agrees b) (hsole : b.Sole (w.state.choices P)) (hlimit : w.context.limit = .never)
    {v : P.Open a} {x : T} (hx : b.get? v.val = some x) :
    ∃ t, Tried S v x w .consistent t ∧ t.context.limit = .never ∧ b.Sole (t.state.choices P) := by
  have hv := hsole v.val x hx
  obtain ⟨trail, s, hsuppose, hattempt⟩ := exists_attempt (P := P) hS.infers v.property.1
    (a.insert v.val x) hlimit (by rw [hv]; exact List.nodup_cons.mpr ⟨nofun, List.nodup_nil⟩)
    (by rw [hv]; exact List.mem_singleton_self x)
  rcases hinfer : S.inference.infer v.val x (a.insert v.val x) ⟨{ w with state := s }, trail⟩ with
    ⟨answer, t⟩
  rw [hinfer] at hattempt
  have hwithin : b.Within (w.state.choices P) := fun u y hy => by
    rw [hsole u y hy]
    exact List.mem_singleton_self y
  obtain ⟨hkept, hno⟩ := hattempt.within hb hwithin hx
  obtain rfl : answer = .ok .consistent := hattempt.concludes.resolve_right hno
  refine ⟨t, ⟨hb.conflicts_eq_zero hagrees hx, trail, s, hsuppose, hinfer⟩, hattempt.limit, ?_⟩
  intro u y hy
  refine eq_singleton_of_append_perm (r := Trail.valuesOf t.trail u) ?_ (hkept u y hy)
  rw [← hsole u y hy]
  exact hattempt.loses u

/-- From a choice the search goes on to the node above. -/
lemma retraces_stepTry (hS : S.Sound) (hcounts : S.LeavesCounts) (hb : P.IsSolution start b)
    {a : Assignment V T} {below : Stack P a} {v : P.Open a} {x : T} {xs : List T}
    (h : Retraces b w₀ (.choice below v (x :: xs)) w) :
    (S.stepTry below v x xs w).Meets (Retraces b w₀) (Retraced P b w₀) := by
  obtain ⟨x', hx, hxs⟩ := h.heads
  obtain ⟨rfl, rfl⟩ := List.cons.inj hxs
  have hagrees : a.Agrees b := h.agrees
  obtain ⟨t, htried, hlimit, hsole⟩ := exists_tried_of_solution hS hb hagrees h.sole h.limit hx
  have hcounted := htried.counted hcounts
  obtain ⟨trail, s, hsuppose, hinfer⟩ := htried.inferred
  have hstep : S.stepTry below v x [] w = .moves (.node (below.push v x t.trail [])) t.toWorld := by
    rw [Backtracking.stepTry, if_pos htried.free]
    simp only [hsuppose, hinfer]
  rw [hstep]
  refine ⟨hlimit, hagrees.insert hx, hsole, trivial, ?_, ?_, ?_⟩
  · have hassigns : w.state.assigns = w₀.state.assigns + a.size := h.assigns
    show t.state.assigns = w₀.state.assigns + (a.insert v.val x).size
    rw [PartialMap.size_insert, if_neg v.property.2, hcounted.assigns]
    show w.state.assigns + 1 = _
    omega
  · exact hcounted.assignments.trans h.assignments
  · exact hcounted.backtracks.trans h.backtracks

/-- **One step** towards a solution that the domains are down to. -/
theorem retraces_step (hS : S.Sound) (hcounts : S.LeavesCounts) (hb : P.IsSolution start b)
    {p : Point P} (h : Retraces b w₀ p w) :
    (S.step p w).Meets (Retraces b w₀) (Retraced P b w₀) := by
  cases p with
  | node stack => exact retraces_stepNode hS hcounts hb h
  | choice below v untried =>
    cases untried with
    | nil =>
      obtain ⟨x, -, hnil⟩ := h.heads
      cases hnil
    | cons x xs => exact retraces_stepTry hS hcounts hb h

/-- **A search from domains that are down to a solution** ends with it, straight away. -/
theorem retraced_search (hS : S.Sound) (hcounts : S.LeavesCounts) (hb : P.IsSolution start b)
    (hlimit : w₀.context.limit = .never) (hsole : b.Sole (w₀.state.choices P)) :
    Retraced P b w₀ (S.search w₀) :=
  Backtracking.run_induction (fun _ _ h => retraces_step hS hcounts hb h)
    ⟨hlimit, nofun, hsole, trivial, rfl, rfl, rfl⟩

omit [DecidableEq T] in
/-- What the final test makes of such a search. -/
lemma Retraced.conclude (hb : P.goalTest b = true) {ending : Ending V T σ}
    (h : Retraced P b w₀ ending) (search : String) :
    let after := BinaryCsp.conclude P search w₀.state.assigns ending
    (∃ b', after.1 = .ok (.solved b') ∧ ∀ v, b'.get? v = b.get? v) ∧
      after.2.context.stats.backtracks = w₀.context.stats.backtracks ∧
      after.2.context.stats.assignments = w₀.context.stats.assignments + P.vars.length := by
  obtain ⟨⟨b', hending, hsame⟩, hassigns, hassignments, hbacktracks⟩ := h
  rcases ending with ⟨answer, w⟩
  obtain rfl : answer = .ok (.solved b') := hending
  obtain ⟨hdecl, hcons⟩ := Problem.goalTest_iff.mp hb
  have htest : P.goalTest b' = true := by
    refine Problem.goalTest_iff.mpr ⟨fun v => ?_, fun v u hu x y hx hy => ?_⟩
    · rw [← hdecl v, PartialMap.mem_iff_isSome, PartialMap.mem_iff_isSome, hsame v]
    · exact hcons v u hu x y (hsame v ▸ hx) (hsame u ▸ hy)
  simp only [BinaryCsp.conclude, htest, if_true]
  refine ⟨⟨b', rfl, hsame⟩, hbacktracks, ?_⟩
  show w.context.stats.assignments + (w.state.assigns - w₀.state.assigns) = _
  have hassigns : w.state.assigns = w₀.state.assigns + P.vars.length := hassigns
  have hassignments : w.context.stats.assignments = w₀.context.stats.assignments := hassignments
  omega

end Retrace

/-! ## Whole searches -/

variable [DecidableEq T]

/-- **A solved problem is pinned to its solution.**  Let a search, with any combination of options
and any limit, from choices that list no value twice, have answered with a solution.  Then every
variable has a current domain, and that holds its value in the solution and nothing else; the
assignment that propagation implies is the solution; and a search without a limit from such domains,
with any combination of options, answers with the solution again, takes no value back, and assigns
as many values as there are variables. -/
theorem Options.solved_problem_is_pinned (o : Options) (P : Problem V T) (w : World V T σ)
    (hnd : ∀ v ∈ P.vars, (w.state.choices P v).Nodup) {b : Assignment V T}
    (hsolved : ((o.backtracking P).toStrategy.solve w).1 = .ok (.solved b)) :
    let s := ((o.backtracking P).toStrategy.solve w).2.state
    (∀ v ∈ P.vars, ∃ x, b.get? v = some x ∧ s.currentDomain? P v = .ok [x]) ∧
      (∀ v, (s.inferAssignment P).1.get? v = b.get? v) ∧
      ∀ (σ' : Type) (o' : Options) (w' : World V T σ'),
        w'.state.choices P = s.choices P → w'.context.limit = .never →
        let again := (o'.backtracking P).toStrategy.solve w'
        (∃ b', again.1 = .ok (.solved b') ∧ ∀ v, b'.get? v = b.get? v) ∧
          again.2.context.stats.backtracks = w'.context.stats.backtracks ∧
          again.2.context.stats.assignments = w'.context.stats.assignments + P.vars.length := by
  intro s
  obtain ⟨hending, htest⟩ := solved_of_conclude _ _ _ hsolved
  obtain ⟨hdecl, hcons⟩ := Problem.goalTest_iff.mp htest
  have hleft : s = ((o.backtracking P).search w).2.state := state_conclude _ _ _
  obtain ⟨stack, hreached, -⟩ :=
    Backtracking.exists_reached_of_solved (S := o.backtracking P) (Prod.ext hending rfl)
  have hcurrent : ∀ v x, b.get? v = some x → s.currentDomain? P v = .ok [x] := fun v x hx => by
    rw [hleft]
    exact hreached.currentDomain?_eq_ok (o.builtIn_inference P) hnd hx
  have hsole : b.Sole (s.choices P) := fun v x hx => by
    rw [hleft]
    exact hreached.sole (o.builtIn_inference P) hnd v x hx
  have hsolution : P.IsSolution (s.choices P) b := by
    refine ⟨hdecl, fun v x hx => ?_, hcons⟩
    rw [hsole v x hx]
    exact List.mem_singleton_self x
  refine ⟨fun v hv => ?_, fun v => ?_, fun σ' o' w' hchoices hlimit => ?_⟩
  · obtain ⟨x, hx⟩ := hsolution.exists_value hv
    exact ⟨x, hx, hcurrent v x hx⟩
  · refine Option.ext fun x => (s.get?_inferAssignment_iff v x).trans ⟨?_, fun hx => ?_⟩
    · rintro ⟨hv, honly⟩
      obtain ⟨y, hy⟩ := hsolution.exists_value hv
      obtain rfl : y = x := List.singleton_inj.mp ((hsole v y hy).symm.trans honly)
      exact hy
    · exact ⟨(hdecl v).mp (PartialMap.mem_iff_exists.mpr ⟨_, hx⟩), hsole v x hx⟩
  · exact (retraced_search (o'.sound_backtracking P) (o'.leavesCounts_backtracking P) hsolution
      hlimit (hchoices ▸ hsole)).conclude htest _

/-- Two numbers in ascending order: found with the standard options, and found again with forward
checking. -/
theorem Options.solved_problem_is_pinned_ascending :
    let P := Problem.ascending [1, 2, 3] [2, 3]
    let w : World Bool Nat Unit := ⟨.initial, .seeded 0 ()⟩
    let o' := { standard with inference := .forwardChecking }
    (∀ v ∈ P.vars, (w.state.choices P v).Nodup) ∧
      ∃ b, ((standard.backtracking P).toStrategy.solve w).1 = .ok (.solved b) ∧
        let s := ((standard.backtracking P).toStrategy.solve w).2.state
        let w' : World Bool Nat Unit := ⟨s, .seeded 1 ()⟩
        w'.state.choices P = s.choices P ∧ w'.context.limit = .never ∧
          (∀ v, (s.inferAssignment P).1.get? v = b.get? v) ∧
          ((o'.backtracking P).toStrategy.solve w').2.context.stats.assignments = 2 := by
  intro P w o'
  have hnd : ∀ v, (w.state.choices P v).Nodup := by decide
  have hsolution : P.IsSolution P.domain (PartialMap.ofList [(false, 1), (true, 2)]) :=
    Problem.isSolution_pair (by decide) (by decide) rfl rfl
  obtain ⟨b, hb⟩ : ∃ b, ((standard.backtracking P).toStrategy.solve w).1 = .ok (.solved b) := by
    rcases solve_cases (standard.sound_backtracking P) rfl (w := w) hnd with ⟨-, hnone⟩ | ⟨-, hyes⟩
    · exact absurd hsolution (hnone _)
    · obtain ⟨b, hb, -⟩ := hyes (Problem.symmetric_ascending _ _)
      exact ⟨b, hb⟩
  obtain ⟨-, hinfer, hagain⟩ := standard.solved_problem_is_pinned P w (fun v _ => hnd v) hb
  exact ⟨fun v _ => hnd v, b, hb, rfl, rfl, hinfer, (hagain Unit o' ⟨_, .seeded 1 ()⟩ rfl rfl).2.2⟩

end BinaryCsp
