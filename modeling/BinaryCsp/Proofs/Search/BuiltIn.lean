import BinaryCsp.Options
import BinaryCsp.Proofs.Propagation.Soundness
import BinaryCsp.Proofs.Trail.Conservation

/-!
# What a search relies on

A search is as good as its parts.  `VariableOrdering.Picks`, `ValueOrdering.Lists` and
`Inference.Sound` say what backtracking asks of them: a variable is picked as long as one is open,
no value is forgotten, and an inference rules out nothing that a mutually supported family still
needs.  `Backtracking.Sound` collects the three.

All built-in parts keep these promises (`Options.sound_backtracking`).
-/

namespace BinaryCsp

variable {V T σ : Type} [DecidableEq V] {P : Problem V T}

/-! ## Orderings -/

/-- As long as a variable is open one is picked, and the limit is not touched. -/
def VariableOrdering.Picks (which : VariableOrdering P σ) : Prop :=
  ∀ s (a : Assignment V T) c, (∃ v ∈ P.vars, v ∉ a) →
    ∃ v c', which.select s a c = (.ok (some v), c') ∧ c'.limit = c.limit

/-- The values of a declared variable are listed in some order, and the limit is not touched. -/
def ValueOrdering.Lists (which : ValueOrdering P σ) : Prop :=
  ∀ s a v c, v ∈ P.vars →
    ∃ xs c', which.order s a v c = (.ok xs, c') ∧ xs.Perm (s.choices P v) ∧ c'.limit = c.limit

lemma openVariables_ne_nil {a : Assignment V T} (h : ∃ v ∈ P.vars, v ∉ a) :
    P.openVariables a ≠ [] := by
  obtain ⟨v, hv, ha⟩ := h
  have hopen : v ∈ P.unassigned a := by simpa [Problem.unassigned] using ⟨hv, ha⟩
  intro hnil
  rw [Problem.openVariables, List.pmap_eq_nil_iff] at hnil
  rw [hnil] at hopen
  exact List.not_mem_nil hopen

lemma picks_firstUnassigned :
    (VariableOrdering.firstUnassigned P : VariableOrdering P σ).Picks := by
  intro s a c h
  obtain ⟨v, vs, hcons⟩ := List.exists_cons_of_ne_nil (openVariables_ne_nil h)
  refine ⟨v, c, ?_, rfl⟩
  simp only [VariableOrdering.firstUnassigned, hcons, List.head?_cons]

lemma picks_minimumRemaining :
    (VariableOrdering.minimumRemaining P : VariableOrdering P σ).Picks := by
  intro s a c h
  obtain ⟨picked, hpicked⟩ : ∃ picked, c.chooseLeast (fun v => remaining P s a v.val)
    (P.openVariables a) = picked := ⟨_, rfl⟩
  have hsome : picked.1 ≠ none := by
    rw [← hpicked]
    intro hnone
    have hnil := Random.Chooser.choose_eq_none_iff.mp hnone
    exact openVariables_ne_nil h (leastBy_eq_nil_iff.mp hnil)
  have hlimit : picked.2.limit = c.limit := by
    rw [← hpicked]
    rfl
  obtain ⟨v, hv⟩ := Option.ne_none_iff_exists'.mp hsome
  refine ⟨v, picked.2, ?_, hlimit⟩
  simp only [VariableOrdering.minimumRemaining, hpicked, hv]

lemma choices?_eq_ok (s : State V T) {v : V} (hv : v ∈ P.vars) :
    s.choices? P v = .ok (s.choices P v) := if_pos hv

lemma lists_unordered : (ValueOrdering.unordered P : ValueOrdering P σ).Lists := by
  intro s a v c hv
  refine ⟨s.choices P v, c, ?_, .refl _, rfl⟩
  simp only [ValueOrdering.unordered, choices?_eq_ok s hv]

lemma byConflicts_perm (a : Assignment V T) (v : V) (xs : List T) :
    (ValueOrdering.byConflicts P a v xs).Perm xs := by
  have hsort := (List.mergeSort_perm (xs.map fun x => (P.clashes v (P.assignedNeighbors a v) x, x))
    fun e f => decide (e.1 ≤ f.1)).map Prod.snd
  rw [List.map_map] at hsort
  exact hsort.trans (by rw [show (Prod.snd ∘ fun x => _) = id from rfl, List.map_id])

lemma lists_leastConstraining :
    (ValueOrdering.leastConstraining P : ValueOrdering P σ).Lists := by
  intro s a v c hv
  refine ⟨ValueOrdering.byConflicts P a v (s.choices P v), c, ?_, byConflicts_perm a v _, rfl⟩
  simp only [ValueOrdering.leastConstraining, choices?_eq_ok s hv, Except.map]

/-! ## Inferences -/

namespace Inference

/-- What backtracking asks of an inference from `v = x`. -/
structure Sound (rule : Inference P σ) : Prop where
  /-- What is ruled out is on the trail. -/
  notes : rule.Notes
  /-- Nothing is ruled out that a supported family with `v = x` still needs, and a contradiction
  means that the family has no value for some variable. -/
  keeps : ∀ {F : V → T → Prop}, P.MutuallySupported F → ∀ v x a (t : Trial V T σ), v ∈ P.vars →
    (∀ z, F v z → z = x) → (t.state.domains P).Holds F →
    ((rule.infer v x a t).2.state.domains P).Holds F ∧
      ((rule.infer v x a t).1 = .ok .inconsistent → ∃ w ∈ P.vars, ∀ y, ¬ F w y)
  /-- Without a limit there is an answer. -/
  concludes : ∀ v x a (t : Trial V T σ), v ∈ P.vars → t.context.limit = .never →
    ((rule.infer v x a t).1 = .ok .consistent ∨ (rule.infer v x a t).1 = .ok .inconsistent) ∧
      (rule.infer v x a t).2.context.limit = .never

theorem sound_none : (Inference.none P : Inference P σ).Sound where
  notes := notes_none
  keeps _ _ _ _ _ _ _ hin := ⟨hin, nofun⟩
  concludes _ _ _ _ _ hl := ⟨Or.inl rfl, hl⟩

lemma neighbors?_eq_ok {v : V} (hv : v ∈ P.vars) : P.neighbors? v = .ok (P.neighbors v) := if_pos hv

section ForwardChecking

variable {F : V → T → Prop} (hF : P.MutuallySupported F) {v : V} {x : T}
  (hx : ∀ z, F v z → z = x)

include hF hx in
/-- A value that goes with no value of `v` but `x` goes with `x`. -/
lemma holds_narrow {w : V} (hw : w ∈ P.neighbors v) {t : Trial V T σ}
    (hin : (t.state.domains P).Holds F) : ((narrow P v x w t).state.domains P).Holds F := by
  intro u y hy
  show y ∈ ((t.state.domains P).insert w _).listAt u
  rw [PartialMap.listAt_insert]
  split
  · rename_i hu
    subst hu
    obtain ⟨z, hz, -, hc⟩ := hF w v (P.neighbors_symm v w hw) y hy
    rw [hx z hz] at hc
    exact List.mem_filter.mpr ⟨hin w y hy, hc⟩
  · exact hin u y hy

include hF hx in
lemma holds_narrowAll {ws : List V} (hws : ∀ w ∈ ws, w ∈ P.neighbors v) {t : Trial V T σ}
    (hin : (t.state.domains P).Holds F) :
    ((narrowAll P v x ws t).2.state.domains P).Holds F ∧
      ((narrowAll P v x ws t).1 = .inconsistent → ∃ w ∈ P.vars, ∀ y, ¬ F w y) := by
  induction ws generalizing t with
  | nil => exact ⟨hin, nofun⟩
  | cons w ws ih =>
    have hw := hws w List.mem_cons_self
    have hnarrow := holds_narrow hF hx hw hin
    rw [narrowAll]
    split
    · rename_i hempty
      refine ⟨hnarrow, fun _ => ⟨w, P.neighbors_declared v w hw, fun y hy => ?_⟩⟩
      have hmem : y ∈ (narrow P v x w t).state.choices P w := hnarrow w y hy
      rw [List.isEmpty_iff.mp hempty] at hmem
      exact List.not_mem_nil hmem
    · exact ih (fun u hu => hws u (List.mem_cons_of_mem _ hu)) hnarrow

end ForwardChecking

lemma narrowAll_concludes (v : V) (x : T) (ws : List V) (t : Trial V T σ) :
    ((narrowAll P v x ws t).1 = .consistent ∨ (narrowAll P v x ws t).1 = .inconsistent) ∧
      (narrowAll P v x ws t).2.context.limit = t.context.limit := by
  induction ws generalizing t with
  | nil => exact ⟨Or.inl rfl, rfl⟩
  | cons w ws ih =>
    rw [narrowAll]
    split
    · exact ⟨Or.inr rfl, rfl⟩
    · exact ih _

theorem sound_forwardChecking : (forwardChecking P : Inference P σ).Sound where
  notes := notes_forwardChecking
  keeps := by
    intro F hF v x a t hv hx hin
    simp only [forwardChecking, neighbors?_eq_ok hv]
    have hws : ∀ w ∈ (P.neighbors v).filter (fun w => !decide (w ∈ a)), w ∈ P.neighbors v :=
      fun w hw => (List.mem_filter.mp hw).1
    obtain ⟨hheld, hempty⟩ :=
      holds_narrowAll hF hx hws (t := { t with state := t.state.materialize P }) hin
    exact ⟨hheld, fun h => hempty (Except.ok.inj h)⟩
  concludes := by
    intro v x a t hv hl
    simp only [forwardChecking, neighbors?_eq_ok hv]
    obtain ⟨hanswer, hlimit⟩ := narrowAll_concludes (P := P) v x
      ((P.neighbors v).filter fun w => !decide (w ∈ a)) { t with state := t.state.materialize P }
    exact ⟨hanswer.imp (congrArg _) (congrArg _), hlimit.trans hl⟩

section ArcConsistency

lemma onNeighbors_map (v : V) :
    P.OnNeighbors (Option.getD (some ((P.neighbors v).map fun w => (w, v))) P.arcs) := by
  intro arc harc
  obtain ⟨w, hw, rfl⟩ := List.mem_map.mp harc
  exact P.neighbors_symm v w hw

variable [DecidableEq T] (how : Propagator V T)

theorem sound_arcConsistency : (arcConsistency P how : Inference P σ).Sound where
  notes := notes_arcConsistency how
  keeps := by
    intro F hF v x a t hv _ hin
    simp only [arcConsistency, neighbors?_eq_ok hv]
    obtain ⟨hheld, ⟨verdict, hverdict⟩, hempty⟩ := how.keeps_supported P t.state (onNeighbors_map v)
      (some t.trail) t.context.limit hF hin
    simp only [hverdict]
    refine ⟨hheld, fun h => ?_⟩
    obtain ⟨w, hw, hnone⟩ := hempty (hverdict.trans h)
    exact ⟨w, P.mem_vars_of_neighbors_ne_nil hw, hnone⟩
  concludes := by
    intro v x a t hv hl
    simp only [arcConsistency, neighbors?_eq_ok hv, hl]
    have hF : P.MutuallySupported fun _ (_ : T) => False := fun _ _ _ _ h => h.elim
    obtain ⟨-, ⟨verdict, hverdict⟩, -⟩ := how.keeps_supported P t.state (onNeighbors_map v)
      (some t.trail) .never hF (fun _ _ h => h.elim)
    obtain ⟨hnever, hlimit⟩ := how.never_interrupted P t.state (onNeighbors_map v) (some t.trail)
    simp only [hverdict]
    refine ⟨?_, hlimit⟩
    cases verdict with
    | consistent => exact Or.inl rfl
    | inconsistent => exact Or.inr rfl
    | interrupted => exact absurd hverdict hnever

end ArcConsistency

/-- The inferences of the library; arc consistency by either method and in any order of the arcs. -/
inductive BuiltIn [DecidableEq T] : Inference P σ → Prop where
  | none : BuiltIn (.none P)
  | forwardChecking : BuiltIn (.forwardChecking P)
  | arcConsistency (how : Propagator V T) : BuiltIn (.arcConsistency P how)

/-- **Every inference of the library is sound.** -/
theorem BuiltIn.sound [DecidableEq T] {rule : Inference P σ} (h : rule.BuiltIn) : rule.Sound := by
  cases h with
  | none => exact sound_none
  | forwardChecking => exact sound_forwardChecking
  | arcConsistency how => exact sound_arcConsistency how

end Inference

/-! ## All parts together -/

/-- A backtracking search whose parts keep their promises. -/
structure Backtracking.Sound (S : Backtracking P σ) : Prop where
  picks : S.variableOrdering.Picks
  lists : S.valueOrdering.Lists
  infers : S.inference.Sound

lemma Options.builtIn_inference [DecidableEq T] (o : Options) (P : Problem V T) :
    (o.backtracking P : Backtracking P σ).inference.BuiltIn := by
  simp only [backtracking]
  cases o.inference with
  | none => exact .none
  | forwardChecking => exact .forwardChecking
  | arcConsistency => exact .arcConsistency o.propagator

/-- **Every combination of options is sound.** -/
theorem Options.sound_backtracking [DecidableEq T] (o : Options) (P : Problem V T) :
    (o.backtracking P : Backtracking P σ).Sound where
  picks := by
    simp only [backtracking]
    cases o.variableOrdering with
    | firstUnassigned => exact picks_firstUnassigned
    | minimumRemaining => exact picks_minimumRemaining
  lists := by
    simp only [backtracking]
    cases o.valueOrdering with
    | unordered => exact lists_unordered
    | leastConstraining => exact lists_leastConstraining
  infers := (o.builtIn_inference P).sound

end BinaryCsp
