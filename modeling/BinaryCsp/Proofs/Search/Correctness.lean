import BinaryCsp.Proofs.Search.Invariant

/-!
# Backtracking finds a solution if there is one

One step of a search whose parts are sound either ends it, or leads to a point that is in order as
well (`Point.InOrder`) and from which every solution that could be found still can be
(`Advances`).  There is one lemma for each kind of step: from a node, back to the frame below, and
to the next value.  `Attempt` says what has become of the world once a value was supposed and its
consequences drawn.

A run ends with a complete assignment, or when no frame is left; by then no solution can be awaited,
hence there is none (`Backtracking.run_cases`).

Asking in one order only, as the search does, is enough to refute.  That what it finds is a solution
needs a predicate that answers alike in both orders.
-/

namespace BinaryCsp

variable {V T σ : Type} [DecidableEq V] {P : Problem V T} {start : V → List T}

/-! ## Complete assignments -/

lemma exists_open {a : Assignment V T} (hdecl : ∀ v ∈ a, v ∈ P.vars)
    (hsize : a.size ≠ P.vars.length) : ∃ v ∈ P.vars, v ∉ a := by
  by_contra hall
  push Not at hall
  refine hsize (Nat.le_antisymm ?_ ?_)
  · rw [← PartialMap.length_keys]
    exact (List.subperm_of_subset a.nodup_keys hdecl).length_le
  · rw [← PartialMap.length_keys]
    exact (List.subperm_of_subset P.vars_nodup hall).length_le

/-- The values of a solution support each other. -/
lemma Problem.IsSolution.mutuallySupported {τ : Assignment V T} (h : P.IsSolution start τ) :
    P.MutuallySupported fun v x => τ.get? v = some x :=
  Consistent.mutuallySupported h.checked fun _ hv => h.exists_value hv

/-- A value of a solution has no conflict with other values of it. -/
lemma Problem.IsSolution.conflicts_eq_zero {τ : Assignment V T} (h : P.IsSolution start τ)
    {a : Assignment V T} (hagrees : a.Agrees τ) {v : V} {x : T} (hx : τ.get? v = some x) :
    P.conflicts a v x = 0 :=
  Problem.conflicts_eq_zero_iff.mpr fun w hw y hy => h.checked v w hw x y hx (hagrees w y hy)

/-! ## Steps -/

/-- A search is in order at a point: nothing limits it, and its frames lead back to the start. -/
structure Point.InOrder (start : V → List T) (p : Point P) (w : World V T σ) : Prop where
  limit : w.context.limit = .never
  level : p.Level start (w.state.current ≠ none) (w.state.choices P)

/-- A step to a point that is in order and awaits whatever solutions were awaited. -/
structure Advances (start : V → List T) (p : Point P) (w : World V T σ) (q : Point P)
    (w' : World V T σ) : Prop where
  inOrder : q.InOrder start w'
  awaits : ∀ τ, P.IsSolution start τ → p.Awaits τ (w.state.choices P) →
    q.Awaits τ (w'.state.choices P)
  consistent : P.Symmetric → P.Consistent p.assignment → P.Consistent q.assignment

section Steps

variable [DecidableEq T] {S : Backtracking P σ} {a : Assignment V T}

omit [DecidableEq T] in
/-- Sound orderings pick a variable that is open and list its values. -/
lemma branch_eq_moves (hS : S.Sound) (stack : Stack P a) (s : State V T) (c : Context σ)
    (hopen : ∃ v ∈ P.vars, v ∉ a) :
    ∃ v xs c', S.branch stack s c = .moves (.choice stack v xs) ⟨s, c'⟩ ∧
      xs.Perm (s.choices P v.val) ∧ c'.limit = c.limit := by
  obtain ⟨v, c', hselect, hc⟩ := hS.picks s a c hopen
  obtain ⟨xs, c'', horder, hxs, hc'⟩ := hS.lists s a v.val c' v.property.1
  refine ⟨v, xs, c'', ?_, hxs, hc'.trans hc⟩
  simp only [Backtracking.branch, hselect, horder]

/-- **From a node** the search ends with a complete assignment, or turns to the values of an open
variable. -/
theorem stepNode_cases (hS : S.Sound) {stack : Stack P a} {w : World V T σ}
    (h : (Point.node stack).InOrder start w) :
    (a.size = P.vars.length ∧ S.stepNode stack w = .ends (.ok (.solved a), w)) ∨
      ∃ q w', S.stepNode stack w = .moves q w' ∧ Advances start (.node stack) w q w' := by
  by_cases hsize : a.size = P.vars.length
  · exact Or.inl ⟨hsize, if_pos hsize⟩
  · right
    have hlimit := h.limit
    obtain ⟨v, xs, c', hbranch, hxs, hc'⟩ := branch_eq_moves hS stack w.state
      (Context.countNode { w.context with limit := .never })
      (exists_open (h.level.assignment).2 hsize)
    refine ⟨.choice stack v xs, ⟨w.state, c'⟩, ?_, ⟨hc', ⟨hxs.subset, h.level⟩⟩, ?_, fun _ h => h⟩
    · rw [Backtracking.stepNode, if_neg hsize]
      simp only [Context.poll, hlimit, Limit.poll, hbranch]
    · intro τ hτ hawaits
      rcases hawaits with ⟨hagrees, hwithin⟩ | hawaits
      · obtain ⟨y, hy⟩ := hτ.exists_value v.property.1
        exact Or.inl ⟨hagrees, hwithin, y, hxs.mem_iff.mpr (hwithin _ y hy), hy⟩
      · exact Or.inr hawaits

lemma World.restore_eq_ok {w : World V T σ} {t : Trail V T} (hmade : w.state.current ≠ none)
    (hdecl : ∀ e ∈ t, e.1 ∈ P.vars) (hnd : ∀ v, (Trail.onto t (w.state.choices P) v).Nodup) :
    ∃ w', w.restore P t = (.ok (), w') ∧ w'.context = w.context ∧ w'.state.current ≠ none ∧
      w'.state.choices P = Trail.onto t (w.state.choices P) := by
  obtain ⟨s, heq, hchoices, hcur, -⟩ :=
    State.restore_eq_ok P (fun h => absurd h hmade) hdecl hnd
  refine ⟨{ w with state := s }, ?_, rfl, fun h => hmade (hcur.mp h), funext hchoices⟩
  rw [World.restore, heq]

/-- **From a choice without values** the search goes back to the frame below; without one it ends,
and no solution is awaited. -/
theorem stepBack_cases (hstart : ∀ v, (start v).Nodup) {stack : Stack P a} {v : P.Open a}
    {w : World V T σ} (h : (Point.choice stack v []).InOrder start w) :
    (stack.stepBack w = .ends (.ok .unsatisfiable, w) ∧
        ∀ τ, ¬ (Point.choice stack v []).Awaits τ (w.state.choices P)) ∨
      ∃ q w', stack.stepBack w = .moves q w' ∧ Advances start (.choice stack v []) w q w' := by
  cases stack with
  | bottom =>
    refine Or.inl ⟨rfl, ?_⟩
    rintro τ (⟨-, -, y, hy, -⟩ | h)
    · exact List.not_mem_nil hy
    · exact h
  | push below u x trail untried =>
    right
    obtain ⟨-, hmade, hdecl, hx, huntried, hbelow⟩ := h.level
    obtain ⟨w', heq, hcontext, hmade', hchoices⟩ :=
      World.restore_eq_ok hmade hdecl (hbelow.nodup hstart)
    refine ⟨.choice below u untried, w'.countBacktrack, ?_, ⟨?_, ?_⟩, ?_, ?_⟩
    · rw [Stack.stepBack, heq]
    · show w'.context.limit = .never
      rw [hcontext]
      exact h.limit
    · show untried ⊆ w'.state.choices P u.val ∧
        below.Level start (w'.state.current ≠ none) (w'.state.choices P)
      rw [hchoices]
      exact ⟨huntried, hbelow.imp fun _ => hmade'⟩
    · rintro τ - (⟨-, -, y, hy, -⟩ | hawaits)
      · exact absurd hy List.not_mem_nil
      · show (Point.choice below u untried).Awaits τ (w'.state.choices P)
        rw [hchoices]
        exact hawaits
    · exact fun _ hcons => hcons.of_insert u.property.2

omit [DecidableEq T] in
/-- The values of undeclared variables support each other: such variables have no neighbors. -/
lemma Problem.mutuallySupported_undeclared (s : State V T) :
    P.MutuallySupported fun u y => u ∉ P.vars ∧ y ∈ s.choices P u := by
  rintro u w hw y ⟨hu, -⟩
  exact absurd (P.mem_vars_of_mem_neighbors hw).1 hu

/-- What has become of a state once `v = x` was supposed and its consequences drawn. -/
structure Attempt (s : State V T) (v : V) (x : T) (answer : Except (Fault V T) Verdict)
    (t : Trial V T σ) : Prop where
  limit : t.context.limit = .never
  concludes : answer = .ok .consistent ∨ answer = .ok .inconsistent
  made : t.state.current ≠ none
  loses : s.Loses P t.state t.trail
  keeps : ∀ {F : V → T → Prop}, P.MutuallySupported F → (∀ z, F v z → z = x) →
    (s.domains P).Holds F → (t.state.domains P).Holds F ∧
      (answer = .ok .inconsistent → ∃ w ∈ P.vars, ∀ y, ¬ F w y)

/-- A supposition and a sound inference make an attempt. -/
lemma exists_attempt {rule : Inference P σ} (hrule : rule.Sound) {v : V} (hv : v ∈ P.vars) {x : T}
    (b : Assignment V T) {w : World V T σ} (hlimit : w.context.limit = .never)
    (hnd : (w.state.choices P v).Nodup) (hx : x ∈ w.state.choices P v) :
    ∃ trail s, w.state.countAssign.suppose P v x = (.ok trail, s) ∧
      Attempt (P := P) w.state v x (rule.infer v x b ⟨{ w with state := s }, trail⟩).1
        (rule.infer v x b ⟨{ w with state := s }, trail⟩).2 := by
  obtain ⟨t₀, s, hsuppose, hloses, hmade, hchoices⟩ :=
    State.exists_suppose (s := w.state.countAssign) hv hnd hx
  obtain ⟨d, htrail, hloses', hcur⟩ := hrule.notes v x b ⟨{ w with state := s }, t₀⟩
  obtain ⟨hconcludes, hlimit'⟩ := hrule.concludes v x b ⟨{ w with state := s }, t₀⟩ hv hlimit
  refine ⟨t₀, s, hsuppose, hlimit', hconcludes, fun h => hmade (hcur h).1, ?_,
    fun hF hsingle hin => ?_⟩
  · rw [htrail]
    exact State.Loses.trans (s := w.state) hloses hloses'
  · refine hrule.keeps hF v x b ⟨{ w with state := s }, t₀⟩ hv hsingle fun u y hy => ?_
    -- the domain of `v` is down to `x`, and that is all the family has there
    show y ∈ s.choices P u
    rw [hchoices]
    split
    · rename_i hu
      subst hu
      rw [hsingle y hy]
      exact List.mem_singleton_self x
    · exact hin u y hy

omit [DecidableEq T] in
/-- The trail of an attempt is about declared variables: a value of another variable is still in
its domain. -/
lemma Attempt.declared {s : State V T} {v : V} {x : T} {answer : Except (Fault V T) Verdict}
    {t : Trial V T σ} (h : Attempt (P := P) s v x answer t) (hv : v ∈ P.vars)
    (hnd : ∀ u, (s.choices P u).Nodup) : ∀ e ∈ t.trail, e.1 ∈ P.vars :=
  h.loses.declared hnd fun u hu y hy => (h.keeps (Problem.mutuallySupported_undeclared s)
    (fun _ hz => absurd hv hz.1) fun _ _ hy => hy.2).1 u y ⟨hu, hy⟩

omit [DecidableEq T] in
/-- An attempt with the value of a solution leaves all values of the solution, and comes to no
contradiction. -/
lemma Attempt.within {s : State V T} {v : V} {x : T} {answer : Except (Fault V T) Verdict}
    {t : Trial V T σ} (h : Attempt (P := P) s v x answer t) {τ : Assignment V T}
    (hτ : P.IsSolution start τ) (hwithin : τ.Within (s.choices P)) (hx : τ.get? v = some x) :
    τ.Within (t.state.choices P) ∧ answer ≠ .ok .inconsistent := by
  have hsingle : ∀ z, τ.get? v = some z → z = x :=
    fun z hz => Option.some.inj (hz.symm.trans hx)
  obtain ⟨hkept, hempty⟩ := h.keeps hτ.mutuallySupported hsingle hwithin
  refine ⟨hkept, fun hbad => ?_⟩
  obtain ⟨w, hw, hnone⟩ := hempty hbad
  obtain ⟨y, hy⟩ := hτ.exists_value hw
  exact hnone y hy

variable {below : Stack P a} {v : P.Open a} {x : T} {xs : List T} {w : World V T σ}

omit [DecidableEq T] in
/-- A value with a conflict is passed over: no solution that is awaited here has it. -/
lemma advances_of_conflict (h : (Point.choice below v (x :: xs)).InOrder start w)
    (hconf : P.conflicts a v.val x ≠ 0) :
    Advances start (.choice below v (x :: xs)) w (.choice below v xs) w where
  inOrder := ⟨h.limit, fun y hy => h.level.1 (List.mem_cons_of_mem x hy), h.level.2⟩
  awaits τ hτ hawaits := by
    rcases hawaits.uncons with ⟨hagrees, -, hx⟩ | hawaits
    · exact absurd (hτ.conflicts_eq_zero hagrees hx) hconf
    · exact hawaits
  consistent _ hcons := hcons

section OfAttempt

variable (hstart : ∀ v, (start v).Nodup) (h : (Point.choice below v (x :: xs)).InOrder start w)
  {answer : Except (Fault V T) Verdict} {t : Trial V T σ}

omit [DecidableEq T] in
include hstart h in
/-- Undoing an attempt leads back to the order before it. -/
lemma Attempt.order (hattempt : Attempt (P := P) w.state v.val x answer t) :
    (∀ u, (Trail.onto t.trail (t.state.choices P) u).Perm (w.state.choices P u)) ∧
      (∀ e ∈ t.trail, e.1 ∈ P.vars) ∧
      (x :: xs) ⊆ Trail.onto t.trail (t.state.choices P) v.val ∧
      below.Level start (t.state.current ≠ none) (Trail.onto t.trail (t.state.choices P)) := by
  obtain ⟨huntried, hlevel⟩ := h.level.onto hattempt.loses fun _ => hattempt.made
  exact ⟨hattempt.loses, hattempt.declared v.property.1 (h.level.2.nodup hstart), huntried, hlevel⟩

omit [DecidableEq T] in
include hstart h in
/-- An attempt without a contradiction makes a new frame.  Solutions with its value are awaited
above it, the others from its untried values or below. -/
lemma Attempt.advances_node
    (hattempt : Attempt (P := P) w.state v.val x (.ok .consistent) t)
    (hconf : P.conflicts a v.val x = 0) :
    Advances start (.choice below v (x :: xs)) w (.node (below.push v x t.trail xs)) t.toWorld := by
  obtain ⟨hperm, hdecl, hvalues, hlevel⟩ := hattempt.order hstart h
  refine ⟨⟨hattempt.limit, hattempt.made, hdecl, hvalues List.mem_cons_self, ?_, hlevel⟩,
    fun τ hτ hawaits => ?_, fun hsym hcons => hcons.insert hsym hconf⟩
  · exact fun y hy => hvalues (List.mem_cons_of_mem x hy)
  · rcases hawaits.uncons with ⟨hagrees, hwithin, hx⟩ | hawaits
    · exact Or.inl ⟨hagrees.insert hx, (hattempt.within hτ hwithin hx).1⟩
    · exact Or.inr (hawaits.mono fun u => (hperm u).symm.subset)

include hstart h in
/-- An attempt that came to a contradiction is undone.  No solution has its value. -/
lemma Attempt.advances_choice
    (hattempt : Attempt (P := P) w.state v.val x (.ok .inconsistent) t) :
    ∃ w', t.toWorld.restore P t.trail = (.ok (), w') ∧
      Advances start (.choice below v (x :: xs)) w (.choice below v xs) w'.countBacktrack := by
  obtain ⟨hperm, hdecl, hvalues, hlevel⟩ := hattempt.order hstart h
  obtain ⟨w', hrestore, hcontext, hmade, hchoices⟩ :=
    World.restore_eq_ok hattempt.made hdecl (hlevel.nodup hstart)
  refine ⟨w', hrestore, ⟨?_, ?_⟩, fun τ hτ hawaits => ?_, fun _ hcons => hcons⟩
  · show w'.context.limit = .never
    rw [hcontext]
    exact hattempt.limit
  · show xs ⊆ w'.state.choices P v.val ∧
      below.Level start (w'.state.current ≠ none) (w'.state.choices P)
    rw [hchoices]
    exact ⟨fun y hy => hvalues (List.mem_cons_of_mem x hy), hlevel.imp fun _ => hmade⟩
  · show (Point.choice below v xs).Awaits τ (w'.state.choices P)
    rw [hchoices]
    rcases hawaits.uncons with ⟨-, hwithin, hx⟩ | hawaits
    · exact absurd rfl (hattempt.within hτ hwithin hx).2
    · exact hawaits.mono fun u => (hperm u).symm.subset

end OfAttempt

/-- **From a choice with a value to try** the search goes on: to a node above it, or to the next
value. -/
theorem stepTry_advances (hS : S.Sound) (hstart : ∀ v, (start v).Nodup)
    (h : (Point.choice below v (x :: xs)).InOrder start w) :
    ∃ q w', S.stepTry below v x xs w = .moves q w' ∧
      Advances start (.choice below v (x :: xs)) w q w' := by
  by_cases hconf : P.conflicts a v.val x = 0
  · obtain ⟨huntried, hlevel⟩ := h.level
    obtain ⟨trail, s, hsuppose, hattempt⟩ := exists_attempt hS.infers v.property.1
      (a.insert v.val x) h.limit (hlevel.nodup hstart v.val) (huntried List.mem_cons_self)
    rcases hr : S.inference.infer v.val x (a.insert v.val x) ⟨{ w with state := s }, trail⟩ with
      ⟨answer, t⟩
    rw [hr] at hattempt
    rcases hattempt.concludes with hok | hbad
    · dsimp only at hok
      subst hok
      refine ⟨_, _, ?_, hattempt.advances_node hstart h hconf⟩
      rw [Backtracking.stepTry, if_pos hconf]
      simp only [hsuppose, hr]
    · dsimp only at hbad
      subst hbad
      obtain ⟨w', hrestore, hadvances⟩ := hattempt.advances_choice hstart h
      refine ⟨_, _, ?_, hadvances⟩
      rw [Backtracking.stepTry, if_pos hconf]
      simp only [hsuppose, hr, hrestore]
  · exact ⟨_, _, if_neg hconf, advances_of_conflict h hconf⟩

/-- **One step** ends with a complete assignment, ends when no solution is awaited any more, or
goes on in order. -/
theorem step_cases (hS : S.Sound) (hstart : ∀ v, (start v).Nodup) {p : Point P}
    (h : p.InOrder start w) :
    (∃ (b : Assignment V T) (stack : Stack P b), p = .node stack ∧ b.size = P.vars.length ∧
        S.step p w = .ends (.ok (.solved b), w)) ∨
      (S.step p w = .ends (.ok .unsatisfiable, w) ∧ ∀ τ, ¬ p.Awaits τ (w.state.choices P)) ∨
      ∃ q w', S.step p w = .moves q w' ∧ Advances start p w q w' := by
  cases p with
  | node stack =>
    rcases stepNode_cases hS h with ⟨hsize, hstep⟩ | hmoves
    · exact Or.inl ⟨_, stack, rfl, hsize, hstep⟩
    · exact Or.inr (Or.inr hmoves)
  | choice below v untried =>
    cases untried with
    | nil => exact Or.inr (stepBack_cases hstart h)
    | cons x xs => exact Or.inr (Or.inr (stepTry_advances hS hstart h))

end Steps

/-! ## Runs -/

variable [DecidableEq T] {S : Backtracking P σ}

/-- **A run ends** with a complete assignment that is consistent if the predicate is symmetric, or
when no solution is awaited any more. -/
theorem run_cases (hS : S.Sound) (hstart : ∀ v, (start v).Nodup) {p : Point P} {w : World V T σ}
    (h : p.InOrder start w) :
    (∃ b w', S.run p w = (.ok (.solved b), w') ∧ (∀ v, v ∈ b ↔ v ∈ P.vars) ∧
        b.Within start ∧
        (P.Symmetric → P.Consistent p.assignment → P.Consistent b)) ∨
      ∃ w', S.run p w = (.ok .unsatisfiable, w') ∧
        ∀ τ, P.IsSolution start τ → ¬ p.Awaits τ (w.state.choices P) := by
  fun_induction Backtracking.run S p w with
  | case1 p w ending hnext =>
    rcases step_cases hS hstart h with ⟨b, stack, rfl, hsize, hstep⟩ | ⟨hstep, hnone⟩ | hmoves
    · cases hstep.symm.trans hnext
      obtain ⟨hwithin, hdecl⟩ := Stack.Level.assignment h.level
      exact Or.inl ⟨b, w, rfl, Problem.mem_iff_of_size_eq hsize (Or.inl hdecl), hwithin,
        fun _ hc => hc⟩
    · cases hstep.symm.trans hnext
      exact Or.inr ⟨w, rfl, fun τ _ => hnone τ⟩
    · obtain ⟨q, w', hstep, -⟩ := hmoves
      cases hstep.symm.trans hnext
  | case2 p w q w' hnext ih =>
    rcases step_cases hS hstart h with ⟨b, stack, rfl, -, hstep⟩ | ⟨hstep, -⟩ | hmoves
    · cases hstep.symm.trans hnext
    · cases hstep.symm.trans hnext
    · obtain ⟨q', w'', hstep, hadvances⟩ := hmoves
      cases hstep.symm.trans hnext
      rcases ih hadvances.inOrder with ⟨b, w₁, hrun, hdecl, hwithin, hcons⟩ | ⟨w₁, hrun, hnone⟩
      · exact Or.inl ⟨b, w₁, hrun, hdecl, hwithin,
          fun hsym hc => hcons hsym (hadvances.consistent hsym hc)⟩
      · exact Or.inr ⟨w₁, hrun, fun τ hτ hawaits => hnone τ hτ (hadvances.awaits τ hτ hawaits)⟩

/-! ## Whole searches -/

/-- **What a search with sound parts ends with**: a complete assignment from the choices, consistent
if the predicate is symmetric; or the answer no, and there is no solution. -/
theorem search_cases (hS : S.Sound) {w : World V T σ} (hlimit : w.context.limit = .never)
    (hnd : ∀ v, (w.state.choices P v).Nodup) :
    (∃ b w', S.search w = (.ok (.solved b), w') ∧ (∀ v, v ∈ b ↔ v ∈ P.vars) ∧
        b.Within (w.state.choices P) ∧ (P.Symmetric → P.Consistent b)) ∨
      ∃ w', S.search w = (.ok .unsatisfiable, w') ∧
        ∀ τ, ¬ P.IsSolution (w.state.choices P) τ := by
  have horder : (Point.node (Stack.bottom : Stack P _)).InOrder (w.state.choices P) w :=
    ⟨hlimit, fun v => .refl _⟩
  rcases run_cases hS hnd horder with ⟨b, w', hrun, hdecl, hwithin, hcons⟩ | ⟨w', hrun, hnone⟩
  · exact Or.inl ⟨b, w', hrun, hdecl, hwithin, fun hsym => hcons hsym P.consistent_empty⟩
  · exact Or.inr ⟨w', hrun, fun τ hτ => hnone τ hτ (Or.inl ⟨nofun, hτ.chosen⟩)⟩

/-- An assignment that passes the final test is the answer. -/
lemma solve_eq_solved {w w' : World V T σ} {b : Assignment V T}
    (hsearch : S.search w = (.ok (.solved b), w')) (htest : P.goalTest b = true) :
    (S.toStrategy.solve w).1 = .ok (.solved b) := by
  show (conclude P "backtracking search" w.state.assigns (S.search w)).1 = _
  rw [hsearch]
  simp only [conclude, htest, if_true]

lemma solve_eq_unsatisfiable {w w' : World V T σ}
    (hsearch : S.search w = (.ok .unsatisfiable, w')) :
    (S.toStrategy.solve w).1 = .ok .unsatisfiable :=
  congrArg (fun ending => (conclude P "backtracking search" w.state.assigns ending).1) hsearch

/-- **What a search with sound parts answers**: no, and there is no solution; or it has found a
complete assignment, and that is a solution if the predicate is symmetric. -/
theorem solve_cases (hS : S.Sound) {w : World V T σ} (hlimit : w.context.limit = .never)
    (hnd : ∀ v, (w.state.choices P v).Nodup) :
    ((S.toStrategy.solve w).1 = .ok .unsatisfiable ∧ ∀ τ, ¬ P.IsSolution (w.state.choices P) τ) ∨
      (S.toStrategy.solve w).1 ≠ .ok .unsatisfiable ∧
        (P.Symmetric → ∃ b, (S.toStrategy.solve w).1 = .ok (.solved b) ∧
          P.IsSolution (w.state.choices P) b) := by
  rcases search_cases hS hlimit hnd with
    ⟨b, w', hsearch, hdecl, hwithin, hcons⟩ | ⟨w', hsearch, hnone⟩
  · refine Or.inr ⟨?_, fun hsym => ⟨b, ?_, hdecl, hwithin, hcons hsym⟩⟩
    · show (conclude P "backtracking search" w.state.assigns (S.search w)).1 ≠ _
      rw [hsearch]
      simp only [conclude]
      split
      · nofun
      · nofun
    · exact solve_eq_solved hsearch (Problem.goalTest_iff.mpr ⟨hdecl, hcons hsym⟩)
  · exact Or.inl ⟨solve_eq_unsatisfiable hsearch, hnone⟩

/-- **Backtracking is sound and complete.**  Whatever the combination of options, a search without a
limit, from choices that list no value twice, answers that there is no solution only if there is
none.  If the predicate is symmetric it finds a solution whenever there is one, and answers that
there is none otherwise; so it neither fails nor gives up. -/
theorem Options.backtracking_sound_and_complete (o : Options) (P : Problem V T) (w : World V T σ)
    (hnd : ∀ v, (w.state.choices P v).Nodup) (hlimit : w.context.limit = .never) :
    let answer := ((o.backtracking P).toStrategy.solve w).1
    (answer = .ok .unsatisfiable → ∀ τ, ¬ P.IsSolution (w.state.choices P) τ) ∧
      (P.Symmetric →
        ((∃ τ, P.IsSolution (w.state.choices P) τ) →
          ∃ τ, answer = .ok (.solved τ) ∧ P.IsSolution (w.state.choices P) τ) ∧
        ((¬ ∃ τ, P.IsSolution (w.state.choices P) τ) → answer = .ok .unsatisfiable)) := by
  intro answer
  rcases solve_cases (o.sound_backtracking P) hlimit hnd with ⟨hno, hnone⟩ | ⟨hyes, hfound⟩
  · refine ⟨fun _ => hnone, fun _ => ⟨?_, fun _ => hno⟩⟩
    rintro ⟨τ, hτ⟩
    exact absurd hτ (hnone τ)
  · refine ⟨fun hno => absurd hno hyes, fun hsym => ?_⟩
    obtain ⟨b, hb, hsolution⟩ := hfound hsym
    exact ⟨fun _ => ⟨b, hb, hsolution⟩, fun hnone => absurd ⟨b, hsolution⟩ hnone⟩

omit [DecidableEq T] in
/-- Two values that go together in both orders solve a pair. -/
lemma Problem.isSolution_pair {xs ys : List T} {constraint : Constraint Bool T} {x y : T}
    (hx : x ∈ xs) (hy : y ∈ ys) (hforth : constraint.check false x true y = true)
    (hback : constraint.check true y false x = true) :
    (pair xs ys constraint).IsSolution (pair xs ys constraint).domain
      (PartialMap.ofList [(false, x), (true, y)]) := by
  refine ⟨fun v => ?_, fun v z hz => ?_, fun v u hu z z' hz hz' => ?_⟩
  · cases v <;> simp [PartialMap.ofList, pair]
  · cases v <;> cases hz
    · exact hx
    · exact hy
  · cases v <;> cases u <;> cases hz <;> cases hz'
    · exact absurd hu ((pair xs ys constraint).neighbors_irrefl false)
    · exact hforth
    · exact hback
    · exact absurd hu ((pair xs ys constraint).neighbors_irrefl true)

/-- Two numbers in ascending order, with the standard options. -/
theorem Options.backtracking_sound_and_complete_ascending :
    let P := Problem.ascending [1, 2, 3] [2, 3]
    let w : World Bool Nat Unit := ⟨.initial, .seeded 0 ()⟩
    (∀ v, (w.state.choices P v).Nodup) ∧ w.context.limit = .never ∧ P.Symmetric ∧
      ∃ τ, ((Options.standard.backtracking P).toStrategy.solve w).1 = .ok (.solved τ) ∧
        P.IsSolution P.domain τ := by
  intro P w
  have hnd : ∀ v, (w.state.choices P v).Nodup := by decide
  have hsym : P.Symmetric := Problem.symmetric_ascending _ _
  have hsolution : P.IsSolution P.domain (PartialMap.ofList [(false, 1), (true, 2)]) := by
    refine ⟨by decide, fun v x hx => ?_, fun v u hu x y hx hy => ?_⟩
    · cases v <;> cases hx <;> decide
    · cases v <;> cases u <;> cases hx <;> cases hy
      · exact absurd hu (P.neighbors_irrefl false)
      · rfl
      · rfl
      · exact absurd hu (P.neighbors_irrefl true)
  exact ⟨hnd, rfl, hsym,
    ((Options.standard.backtracking_sound_and_complete P w hnd rfl).2 hsym).1 ⟨_, hsolution⟩⟩

end BinaryCsp
