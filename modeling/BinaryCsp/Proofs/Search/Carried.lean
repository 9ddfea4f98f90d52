import BinaryCsp.Proofs.Propagation.Incremental
import BinaryCsp.Proofs.Search.Safety

/-!
# What a search carries from frame to frame

Many facts about a search relate the assignment of its frames to the domains as they stand: values
go together, domains are narrowed or down to one value.  Such a fact need only be shown to survive
the trial of one value (`Backtracking.Carries`).  It then holds at every frame throughout a search
(`everywhere_step`), since a frame that is undone leaves the one below as it was, up to the order of
the domains; and so it holds of a solution (`carries_search`).

The last part says what a trial without a contradiction does to the domains.  A supposition cuts one
of them down to one value (`Tried.exists_supposed`); forward checking filters the open neighbors
(`Inference.choices_forwardChecking`); and none of the built-in inferences touches a domain that is
down to the value of an assigned variable (`Inference.KeepsSole`).
-/

namespace BinaryCsp

variable {V T σ : Type} [DecidableEq V] {P : Problem V T}

/-! ## What holds at every frame -/

section Everywhere

variable (G : Assignment V T → (V → List T) → Prop)

/-- What holds of the assignment up to each frame, and of the lists as they were above it. -/
def Stack.Everywhere : {a : Assignment V T} → Stack P a → (V → List T) → Prop
  | _, .bottom, avail => G .empty avail
  | _, .push (a := a) below v x trail _, avail =>
    G (a.insert v.val x) avail ∧ below.Everywhere (Trail.onto trail avail)

def Point.Everywhere : Point P → (V → List T) → Prop
  | .node stack => stack.Everywhere G
  | .choice below _ _ => below.Everywhere G

/-- What a search carries from frame to frame: it does not depend on the order of the domains, and
trying a value without a contradiction leads to it again. -/
structure Backtracking.Carries [DecidableEq T] (S : Backtracking P σ) : Prop where
  perm : ∀ {a : Assignment V T} {avail avail' : V → List T}, (∀ v, (avail v).Perm (avail' v)) →
    G a avail → G a avail'
  descend : ∀ {a : Assignment V T} {v : P.Open a} {x : T} {w : World V T σ} {t : Trial V T σ},
    Tried S v x w .consistent t → G a (w.state.choices P) →
      G (a.insert v.val x) (t.state.choices P)

variable {G} {a : Assignment V T} {stack : Stack P a}

lemma Stack.Everywhere.top {avail : V → List T} (h : stack.Everywhere G avail) : G a avail := by
  cases stack with
  | bottom => exact h
  | push below v x trail untried => exact h.1

/-- Frames are made for declared variables. -/
lemma Stack.declared (stack : Stack P a) : ∀ v ∈ a, v ∈ P.vars := by
  induction stack with
  | bottom => exact fun v hv => absurd hv List.not_mem_nil
  | push below u x trail untried ih =>
    intro v hv
    rcases PartialMap.mem_insert.mp hv with rfl | hv
    · exact u.property.1
    · exact ih v hv

variable [DecidableEq T]

lemma Stack.Everywhere.perm {S : Backtracking P σ} (hG : S.Carries G) {avail avail' : V → List T}
    (h : stack.Everywhere G avail) (hperm : ∀ v, (avail v).Perm (avail' v)) :
    stack.Everywhere G avail' := by
  induction stack generalizing avail avail' with
  | bottom => exact hG.perm hperm h
  | push below v x trail untried ih =>
    exact ⟨hG.perm hperm h.1, ih h.2 fun w => (hperm w).append_right _⟩

/-- What is known of a solution that a search has ended with. -/
def Ending.Carries (P : Problem V T) (G : Assignment V T → (V → List T) → Prop)
    (ending : Ending V T σ) : Prop :=
  ∀ b, ending.1 = .ok (.solved b) → (∀ v, v ∈ b ↔ v ∈ P.vars) ∧ G b (ending.2.state.choices P)

omit [DecidableEq T] in
lemma Ending.carries_of_unsuccessful {ending : Ending V T σ} (h : ending.Unsuccessful) :
    ending.Carries P G := by
  intro b hb
  rcases h with h | h <;> cases h.symm.trans hb

omit [DecidableEq T] in
lemma Ending.carries_fault (f : Fault V T) (w : World V T σ) :
    Ending.Carries P G (.error f, w) := nofun

lemma Stack.carries_giveUp (stack : Stack P a) (w : World V T σ) :
    (stack.giveUp w).Carries P G :=
  fun b hb => absurd hb (stack.giveUp_ne_solved w b)

variable {S : Backtracking P σ} (hS : S.inference.Notes) {s₀ : State V T}
  (hnd : ∀ v ∈ P.vars, (s₀.choices P v).Nodup)

include hS hnd in
/-- **One step** carries what holds at every frame on to the next point. -/
theorem everywhere_step (hG : S.Carries G) {p : Point P} {w : World V T σ}
    (hlost : s₀.Loses P w.state p.outstanding) (h : p.Everywhere G (w.state.choices P)) :
    (S.step p w).Meets (fun q w' => q.Everywhere G (w'.state.choices P)) (Ending.Carries P G) := by
  have hcases := pointStep S p w
  generalize S.step p w = next at hcases ⊢
  cases hcases with
  | @node _ stack _ step =>
    cases step with
    | complete size =>
      rintro b ⟨⟩
      exact ⟨Problem.mem_iff_of_size_eq size (Or.inl stack.declared), Stack.Everywhere.top h⟩
    | stop size poll => exact stack.carries_giveUp _
    | fault f c => exact Ending.carries_fault f _
    | branch size poll select order => exact h
  | back step =>
    cases step with
    | unsatisfiable => exact Ending.carries_of_unsuccessful (Ending.unsuccessful_unsatisfiable w)
    | fault _ f w' => exact Ending.carries_fault f w'
    | resume restore =>
      refine Eq.subst (motive := fun avail => Stack.Everywhere G _ avail) ?_ h.2
      exact (funext (World.choices_of_restore restore)).symm
  | @attempt _ below v _ _ _ step =>
    have hv : (w.state.choices P v.val).Nodup := State.Loses.nodup hlost (hnd v.val v.property.1)
    cases step with
    | conflict conflicts => exact h
    | fault f w' => exact Ending.carries_fault f w'
    | descend tried =>
      exact ⟨hG.descend tried (Stack.Everywhere.top h),
        Stack.Everywhere.perm hG h fun u => (tried.loses hS hv u).symm⟩
    | undo tried restore =>
      exact Stack.Everywhere.perm hG h fun u =>
        (tried.loses hS hv u).symm.trans (.of_eq (World.choices_of_restore restore u).symm)
    | stop tried restore => exact below.carries_giveUp _

include hS hnd in
/-- What is outstanding is what the domains have lost, and what is carried holds everywhere: the two
are kept together. -/
lemma carried_step (hG : S.Carries G) {p : Point P} {w : World V T σ}
    (hlost : s₀.Loses P w.state p.outstanding) (h : p.Everywhere G (w.state.choices P)) :
    (S.step p w).Meets (fun q w' => s₀.Loses P w'.state q.outstanding ∧
      q.Everywhere G (w'.state.choices P)) (Ending.Carries P G) := by
  have hloses := loses_step hS hnd hlost
  have hnext := everywhere_step hS hnd hG hlost h
  generalize S.step p w = next at hloses hnext ⊢
  cases next with
  | moves q w' => exact ⟨hloses, hnext⟩
  | ends ending => exact hnext

include hS hnd in
/-- **What a search carries from frame to frame holds at its end.** -/
theorem carries_search (hG : S.Carries G) {w : World V T σ} (hw : s₀ = w.state)
    (h : G .empty (w.state.choices P)) : (S.search w).Carries P G :=
  Backtracking.run_induction
    (I := fun p w' => s₀.Loses P w'.state p.outstanding ∧ p.Everywhere G (w'.state.choices P))
    (fun _ _ ⟨hlost, hp⟩ => carried_step hS hnd hG hlost hp) ⟨hw ▸ State.Loses.nil _, h⟩

end Everywhere

/-! ## What trying a value does to the domains -/

section Trials

variable {S : Backtracking P σ}

lemma Assignment.get?_of_insert {a : Assignment V T} {u v : V} {x y : T} (huv : v ≠ u)
    (h : (a.insert v x).get? u = some y) : a.get? u = some y := by
  rwa [PartialMap.get?_insert, if_neg huv] at h

/-- The trial of a value, with the domains as the supposition left them. -/
lemma Tried.exists_supposed [DecidableEq T] {a : Assignment V T} {v : P.Open a} {x : T}
    {w : World V T σ} {verdict : Verdict} {t : Trial V T σ} (h : Tried S v x w verdict t) :
    x ∈ w.state.choices P v.val ∧ ∃ t₀ : Trial V T σ,
      (∀ u, t₀.state.choices P u = if v.val = u then [x] else w.state.choices P u) ∧
        S.inference.infer v.val x (a.insert v.val x) t₀ = (.ok verdict, t) := by
  obtain ⟨trail, s, hsuppose, hinfer⟩ := h.inferred
  obtain ⟨hx, hchoices⟩ := State.choices_of_suppose hsuppose
  exact ⟨hx, ⟨{ w with state := s }, trail⟩, hchoices, hinfer⟩

namespace Inference

/-- Narrowing one variable after the other filters them all, if none of them is left without a
value. -/
lemma choices_narrowAll {v : V} {x : T} {ws : List V} {t : Trial V T σ}
    (hok : (narrowAll P v x ws t).1 = .consistent) (u : V) :
    (narrowAll P v x ws t).2.state.choices P u
      = if u ∈ ws then (t.state.choices P u).filter fun y => P.check v x u y
        else t.state.choices P u := by
  induction ws generalizing t with
  | nil => rfl
  | cons w ws ih =>
    have hnarrow : (narrow P v x w t).state.choices P u
        = if w = u then (t.state.choices P w).filter fun y => P.check v x w y
          else t.state.choices P u := PartialMap.listAt_insert _ _ _ _
    rw [narrowAll] at hok ⊢
    split at hok
    · cases hok
    · rename_i hleft
      rw [if_neg hleft, ih hok, hnarrow]
      by_cases hw : w = u
      · subst hw
        simp
      · simp [hw, Ne.symm hw]

/-- **Forward checking filters the open neighbors**, if it comes to no contradiction. -/
lemma choices_forwardChecking {v : V} (hv : v ∈ P.vars) {x : T} {a : Assignment V T}
    {t t' : Trial V T σ} (h : (forwardChecking P).infer v x a t = (.ok .consistent, t')) (u : V) :
    t'.state.choices P u
      = if u ∈ P.neighbors v ∧ u ∉ a then (t.state.choices P u).filter fun y => P.check v x u y
        else t.state.choices P u := by
  simp only [forwardChecking, neighbors?_eq_ok hv] at h
  obtain ⟨hverdict, rfl⟩ := Prod.mk.inj h
  rw [choices_narrowAll (Except.ok.inj hverdict)]
  simp only [List.mem_filter, Bool.not_eq_true', decide_eq_false_iff_not]
  rfl

end Inference

section Tried

variable [DecidableEq T] {a : Assignment V T} {v : P.Open a} {x : T} {w : World V T σ}
  {t : Trial V T σ}

/-- A trial under forward checking filters the lists of the neighbors that are open after it, and
leaves those of other open variables as they were. -/
lemma Tried.choices_of_forwardChecking (h : Tried S v x w .consistent t)
    (hS : S.inference = .forwardChecking P) {u : V} (hu : u ∉ a.insert v.val x) :
    t.state.choices P u = if u ∈ P.neighbors v.val
      then (w.state.choices P u).filter fun z => P.check v.val x u z
      else w.state.choices P u := by
  obtain ⟨-, t₀, hchoices, hinfer⟩ := h.exists_supposed
  have hne : v.val ≠ u := fun hv => hu (PartialMap.mem_insert.mpr (Or.inl hv))
  rw [hS] at hinfer
  rw [Inference.choices_forwardChecking v.property.1 hinfer, hchoices, if_neg hne]
  simp only [hu, not_false_eq_true, and_true]

/-- A trial under arc consistency is a consistent pass from the arcs that point at the variable. -/
lemma Tried.exists_pass {how : Propagator V T} (h : Tried S v x w .consistent t)
    (hS : S.inference = .arcConsistency P how) :
    ∃ t₀ : Trial V T σ,
      (∀ u, t₀.state.choices P u = if v.val = u then [x] else w.state.choices P u) ∧
        let pass := how.propagate P t₀.state (some (P.pointingAt v.val)) (some t₀.trail)
          t₀.context.limit
        pass.answer = .ok .consistent ∧ t.state = pass.state := by
  obtain ⟨-, t₀, hchoices, hinfer⟩ := h.exists_supposed
  obtain ⟨hanswer, hstate⟩ :=
    Inference.arcConsistency_eq_propagate how v.property.1 x (a.insert v.val x) t₀
  rw [hS] at hinfer
  rw [hinfer] at hanswer hstate
  exact ⟨t₀, hchoices, hanswer.symm, hstate⟩

end Tried

/-! ### Assigned variables -/

namespace Inference

/-- From a declared variable, and without a contradiction, the domain of an assigned variable that
is down to one value stays so. -/
def KeepsSole (rule : Inference P σ) : Prop :=
  ∀ {v : V} {x : T} {a : Assignment V T} {t t' : Trial V T σ}, v ∈ P.vars →
    rule.infer v x a t = (.ok .consistent, t') →
      ∀ u ∈ a, ∀ y, t.state.choices P u = [y] → t'.state.choices P u = [y]

lemma keepsSole_none : (Inference.none P : Inference P σ).KeepsSole := by
  intro v x a t t' _ h u _ y hu
  cases h
  exact hu

lemma keepsSole_forwardChecking : (forwardChecking P : Inference P σ).KeepsSole := by
  intro v x a t t' hv h u hmem y hu
  rw [choices_forwardChecking hv h, if_neg fun hopen => hopen.2 hmem]
  exact hu

lemma keepsSole_arcConsistency [DecidableEq T] (how : Propagator V T) :
    (arcConsistency P how : Inference P σ).KeepsSole := by
  intro v x a t t' hv h u _ y hu
  obtain ⟨hanswer, hstate⟩ := arcConsistency_eq_propagate how hv x a t
  rw [h] at hanswer hstate
  rw [show t'.state = _ from hstate]
  exact how.choices_eq_singleton P t.state (onNeighbors_map v) _ _ hanswer.symm hu

lemma BuiltIn.keepsSole [DecidableEq T] {rule : Inference P σ} (h : rule.BuiltIn) :
    rule.KeepsSole := by
  cases h with
  | none => exact keepsSole_none
  | forwardChecking => exact keepsSole_forwardChecking
  | arcConsistency how => exact keepsSole_arcConsistency how

end Inference

/-- The list of every assigned variable holds its value and nothing else. -/
def Assignment.Sole (a : Assignment V T) (avail : V → List T) : Prop :=
  ∀ u y, a.get? u = some y → avail u = [y]

lemma Assignment.sole_empty (avail : V → List T) : Assignment.Sole .empty avail := nofun

/-- **The domain of an assigned variable is down to its value.** -/
theorem carries_sole [DecidableEq T] (hS : S.inference.KeepsSole) : S.Carries Assignment.Sole where
  perm hperm h u y hy := List.singleton_perm.mp (h u y hy ▸ hperm u) |>.symm
  descend := by
    intro a v x w t tried h u y hy
    obtain ⟨-, t₀, hchoices, hinfer⟩ := tried.exists_supposed
    have hmem : u ∈ a.insert v.val x := PartialMap.mem_iff_exists.mpr ⟨_, hy⟩
    refine hS v.property.1 hinfer u hmem y ?_
    rw [hchoices]
    rw [PartialMap.get?_insert] at hy
    split at hy
    · rename_i huv
      rw [if_pos huv, Option.some.inj hy]
    · rename_i huv
      rw [if_neg huv]
      exact h u y hy

end Trials

end BinaryCsp
