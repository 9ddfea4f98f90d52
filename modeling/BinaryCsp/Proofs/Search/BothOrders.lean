import BinaryCsp.Proofs.Search.Carried

/-!
# Who asks in the other order

A search asks a new value for conflicts with the values assigned before, from the new variable to
the old ones.  The goal test asks in both orders.  If the predicate tells the two apart, somebody
else has to ask from the old variables to the new one, and the inferences do:

* forward checking asked the old values when they were assigned, and took out of the open domains
  whatever they do not go with (`Problem.ForwardChecked`);
* arc consistency asks when the new value is assigned: both variables are down to one value by then,
  and the arc from the old one is revised (`Problem.Pinned`, `Propagator.check_of_consistent`).

So with either of them a search ends with solutions only, whatever the predicate
(`Options.solved_passes_goalTest`).  Without inference nobody asks, and a search may end with an
assignment that its own final test refuses (`Options.one_sided_fails_goalTest`).

That no solution is passed over needs neither: a value of a solution has no conflict, whoever asks.
Hence a search that infers something decides every problem
(`Options.inferring_sound_and_complete`).
-/

namespace BinaryCsp

variable {V T σ : Type} [DecidableEq V] {P : Problem V T}

/-! ## What is carried -/

section Inferences

variable [DecidableEq T] {S : Backtracking P σ}

/-- A predicate that answers alike in both orders need be asked in one. -/
lemma carries_consistent (hsym : P.Symmetric) (S : Backtracking P σ) :
    S.Carries fun a _ => P.Consistent a where
  perm _ h := h
  descend tried h := h.insert hsym tried.free

/-! ### Forward checking -/

/-- Assigned neighbors go together, and every value left to an open variable goes with the values of
its assigned neighbors, asked from those. -/
structure Problem.ForwardChecked (P : Problem V T) (a : Assignment V T) (avail : V → List T) :
    Prop where
  consistent : P.Consistent a
  checked : ∀ u y, a.get? u = some y → ∀ w ∈ P.neighbors u, w ∉ a → ∀ z ∈ avail w,
    P.check u y w z = true

omit [DecidableEq T] in
lemma Problem.forwardChecked_empty (avail : V → List T) : P.ForwardChecked .empty avail :=
  ⟨P.consistent_empty, nofun⟩

/-- **Forward checking has asked the old values.** -/
lemma carries_forwardChecking (hS : S.inference = .forwardChecking P) :
    S.Carries P.ForwardChecked where
  perm hperm h :=
    ⟨h.consistent, fun u y hy w hw hopen z hz =>
      h.checked u y hy w hw hopen z ((hperm w).mem_iff.mpr hz)⟩
  descend := by
    intro a v x w t tried h
    obtain ⟨hx, -⟩ := tried.exists_supposed
    refine ⟨h.consistent.insert_of_both (Problem.conflicts_eq_zero_iff.mp tried.free) ?_, ?_⟩
    · intro u hu y hy
      exact h.checked u y hy v.val (P.neighbors_symm _ _ hu) v.property.2 x hx
    · intro u y hy u' hu' hopen z hz
      rw [tried.choices_of_forwardChecking hS hopen] at hz
      rw [PartialMap.mem_insert, not_or] at hopen
      by_cases huv : v.val = u
      · subst huv
        rw [PartialMap.get?_insert, if_pos rfl] at hy
        obtain rfl := Option.some.inj hy
        rw [if_pos hu'] at hz
        exact (List.mem_filter.mp hz).2
      · refine h.checked u y (Assignment.get?_of_insert huv hy) u' hu' hopen.2 z ?_
        split at hz
        · exact (List.mem_filter.mp hz).1
        · exact hz

/-! ### Arc consistency -/

/-- Assigned neighbors go together, and the domain of an assigned variable is down to its value. -/
structure Problem.Pinned (P : Problem V T) (a : Assignment V T) (avail : V → List T) : Prop where
  consistent : P.Consistent a
  single : ∀ u y, a.get? u = some y → avail u = [y]

omit [DecidableEq T] in
lemma Problem.pinned_empty (avail : V → List T) : P.Pinned .empty avail :=
  ⟨P.consistent_empty, nofun⟩

/-- **Arc consistency asks the old values** when the new one is assigned. -/
lemma carries_arcConsistency (how : Propagator V T) (hS : S.inference = .arcConsistency P how) :
    S.Carries P.Pinned := by
  have hsole : S.Carries Assignment.Sole :=
    carries_sole (hS ▸ Inference.keepsSole_arcConsistency how)
  refine ⟨fun hperm h => ⟨h.consistent, hsole.perm hperm h.single⟩, fun {a v x w t} tried h => ?_⟩
  refine ⟨h.consistent.insert_of_both (Problem.conflicts_eq_zero_iff.mp tried.free) ?_,
    hsole.descend tried h.single⟩
  intro u hu y hy
  obtain ⟨t₀, hchoices, hanswer, -⟩ := tried.exists_pass hS
  have hold : t₀.state.choices P u = [y] := by
    rw [hchoices, if_neg (P.ne_of_mem_neighbors hu)]
    exact h.single u y hy
  have hv : t₀.state.choices P v.val = [x] := by rw [hchoices, if_pos rfl]
  refine how.check_of_consistent P t₀.state (Inference.onNeighbors_map v.val) (some t₀.trail)
    t₀.context.limit hanswer hold hv (P.mem_pointingAt.mpr ⟨rfl, hu⟩) fun hmem => ?_
  exact P.ne_of_mem_neighbors hu (P.mem_pointingAt.mp hmem).1.symm

end Inferences

/-! ## Whole searches -/

variable [DecidableEq T]

/-- What a search ends with is consistent, if its inference asks in both orders or need not. -/
lemma Options.consistent_search (o : Options) (P : Problem V T) (w : World V T σ)
    (hnd : ∀ v ∈ P.vars, (w.state.choices P v).Nodup)
    (hboth : o.inference ≠ .none ∨ P.Symmetric) :
    ((o.backtracking P).search w).Carries P fun a _ => P.Consistent a := by
  have hS := (o.sound_backtracking P (σ := σ)).infers.notes
  rcases hboth with hinfers | hsym
  · cases hinference : o.inference with
    | none => exact absurd hinference hinfers
    | forwardChecking =>
      have hfc := carries_search hS hnd (carries_forwardChecking (by
        simp only [backtracking, hinference])) rfl (Problem.forwardChecked_empty _)
      exact fun b hb => ⟨(hfc b hb).1, (hfc b hb).2.consistent⟩
    | arcConsistency =>
      have hmac := carries_search hS hnd (carries_arcConsistency o.propagator (by
        simp only [backtracking, hinference])) rfl (Problem.pinned_empty _)
      exact fun b hb => ⟨(hmac b hb).1, (hmac b hb).2.consistent⟩
  · exact carries_search hS hnd (carries_consistent hsym _) rfl P.consistent_empty

/-- **A search ends with solutions only.**  Whatever the orderings and the limit, if something is
inferred or the predicate answers alike in both orders, an assignment that a search ends with, from
choices that list no value twice, passes the goal test; so the final test never refuses one. -/
theorem Options.solved_passes_goalTest (o : Options) (P : Problem V T) (w : World V T σ)
    (hnd : ∀ v, (w.state.choices P v).Nodup) (hboth : o.inference ≠ .none ∨ P.Symmetric) :
    (∀ b w', (o.backtracking P).search w = (.ok (.solved b), w') → P.goalTest b = true) ∧
      ∀ search, ((o.backtracking P).toStrategy.solve w).1 ≠ .error (.unsoundSolution search) := by
  have hcarries := o.consistent_search P w (fun v _ => hnd v) hboth
  refine ⟨fun b w' hb => Problem.goalTest_iff.mpr (hcarries b (congrArg Prod.fst hb)),
    fun search hfault => ?_⟩
  rcases conclude_cases (P := P) "backtracking search" w.state.assigns
    ((o.backtracking P).search w) with hsame | ⟨⟨b, hb, htest⟩, -⟩
  · have hundoable : (Point.node (Stack.bottom : Stack P _)).Undoable (w.state.choices P) w :=
      fun v => .refl _
    obtain ⟨outcome, houtcome⟩ :=
      answered_run hnd (o.sound_backtracking P) (o.answers_inference P) hundoable
    cases houtcome.symm.trans (hsame.symm.trans hfault)
  · cases htest.symm.trans (Problem.goalTest_iff.mpr (hcarries b hb))

/-- A predicate that is asked from one side only, under forward checking. -/
theorem Options.solved_passes_goalTest_one_sided :
    let o := { standard with inference := .forwardChecking }
    let P := Problem.pair [1, 2, 3] [2, 3] (.ofPredicate fun v x _ y => v || decide (x < y))
    let w : World Bool Nat Unit := ⟨.initial, .seeded 0 ()⟩
    (∀ v, (w.state.choices P v).Nodup) ∧ (o.inference ≠ .none ∨ P.Symmetric) ∧
      ∀ b w', (o.backtracking P).search w = (.ok (.solved b), w') → P.goalTest b = true := by
  intro o P w
  have hnd : ∀ v, (w.state.choices P v).Nodup := by decide
  have hboth : o.inference ≠ .none ∨ P.Symmetric := Or.inl (by decide)
  exact ⟨hnd, hboth, (o.solved_passes_goalTest P w hnd hboth).1⟩

/-- A predicate that says yes from `true` to `false` and no from `false` to `true`: without
inference only the first is asked before the final test. -/
theorem Options.one_sided_fails_goalTest :
    let P := Problem.pair [1] [1] (.ofPredicate fun v _ _ _ => v)
    let w : World Bool Nat Unit := ⟨.initial, .seeded 0 ()⟩
    (∀ v, (w.state.choices P v).Nodup) ∧
      (∃ b, ((standard.backtracking P).search w).1 = .ok (.solved b) ∧ P.goalTest b = false) ∧
      ((standard.backtracking P).toStrategy.solve w).1
        = .error (.unsoundSolution "backtracking search") := by
  intro P w
  have hnd : ∀ v, (w.state.choices P v).Nodup := by decide
  obtain ⟨b, hb, htest⟩ : ∃ b, ((standard.backtracking P).search w).1 = .ok (.solved b) ∧
      P.goalTest b = false := by
    refine ⟨(PartialMap.empty.insert false 1).insert true 1, ?_, by decide⟩
    rw [Backtracking.search, Backtracking.run_of_moves rfl, Backtracking.run_of_moves rfl,
      Backtracking.run_of_moves rfl, Backtracking.run_of_moves rfl, Backtracking.run_of_ends rfl]
  refine ⟨hnd, ⟨b, hb, htest⟩, ?_⟩
  show (conclude P "backtracking search" w.state.assigns ((standard.backtracking P).search w)).1 = _
  rcases hsearch : (standard.backtracking P).search w with ⟨answer, w'⟩
  rw [hsearch] at hb
  obtain rfl : answer = .ok (.solved b) := hb
  simp only [conclude, htest]
  rfl

/-- **With an inference the search is sound and complete for every predicate.**  Whatever the
orderings, a search without a limit that infers something, from choices that list no value twice,
answers.  It finds a solution, one that goes in both orders, exactly if there is one, and answers
that there is none exactly if there is none. -/
theorem Options.inferring_sound_and_complete (o : Options) (P : Problem V T) (w : World V T σ)
    (hnd : ∀ v, (w.state.choices P v).Nodup) (hlimit : w.context.limit = .never)
    (hinfers : o.inference ≠ .none) :
    let answer := ((o.backtracking P).toStrategy.solve w).1
    ((∃ τ, answer = .ok (.solved τ) ∧ P.IsSolution (w.state.choices P) τ) ↔
        ∃ τ, P.IsSolution (w.state.choices P) τ) ∧
      (answer = .ok .unsatisfiable ↔ ¬ ∃ τ, P.IsSolution (w.state.choices P) τ) := by
  intro answer
  rcases search_cases (o.sound_backtracking P) hlimit hnd with
    ⟨b, w', hsearch, hdecl, hwithin, -⟩ | ⟨w', hsearch, hnone⟩
  · have hboth := o.consistent_search P w (fun v _ => hnd v) (Or.inl hinfers) b
      (congrArg Prod.fst hsearch)
    have hsolution : P.IsSolution (w.state.choices P) b := ⟨hdecl, hwithin, hboth.2⟩
    have hanswer : answer = .ok (.solved b) :=
      solve_eq_solved hsearch (Problem.goalTest_iff.mpr hboth)
    refine ⟨⟨fun ⟨τ, _, hτ⟩ => ⟨τ, hτ⟩, fun _ => ⟨b, hanswer, hsolution⟩⟩, fun hno => ?_,
      fun hnone => absurd ⟨b, hsolution⟩ hnone⟩
    cases hanswer.symm.trans hno
  · have hno : ¬ ∃ τ, P.IsSolution (w.state.choices P) τ := fun ⟨τ, hτ⟩ => hnone τ hτ
    exact ⟨⟨fun ⟨τ, _, hτ⟩ => ⟨τ, hτ⟩, fun h => absurd h hno⟩, fun _ => hno,
      fun _ => solve_eq_unsatisfiable hsearch⟩

/-- A predicate that is asked from one side only, under forward checking: there is a solution. -/
theorem Options.inferring_sound_and_complete_one_sided :
    let o := { standard with inference := .forwardChecking }
    let P := Problem.pair [1, 2, 3] [2, 3] (.ofPredicate fun v x _ y => v || decide (x < y))
    let w : World Bool Nat Unit := ⟨.initial, .seeded 0 ()⟩
    (∀ v, (w.state.choices P v).Nodup) ∧ w.context.limit = .never ∧ o.inference ≠ .none ∧
      ∃ τ, ((o.backtracking P).toStrategy.solve w).1 = .ok (.solved τ) ∧
        P.IsSolution P.domain τ := by
  intro o P w
  have hnd : ∀ v, (w.state.choices P v).Nodup := by decide
  have hsolution : P.IsSolution P.domain (PartialMap.ofList [(false, 1), (true, 2)]) :=
    Problem.isSolution_pair (by decide) (by decide) rfl rfl
  exact ⟨hnd, rfl, by decide,
    (o.inferring_sound_and_complete P w hnd rfl (by decide)).1.mpr ⟨_, hsolution⟩⟩

end BinaryCsp
