import BinaryCsp.Proofs.Search.Carried
import BinaryCsp.Proofs.Search.ValueOrder
import Mathlib.Logic.Relation

/-!
# The domains at the nodes of a search

Whenever a search is about to pick a variable, its domains tell what has been assigned.

* Under every inference the current domain of an assigned variable is down to its value
  (`carries_sole`), and current domains exist once a variable is assigned (`made_step`).
* Forward checking leaves to an open variable the values of the start that have no conflict, and all
  of them (`carries_free`).
* Arc consistency leaves no value with a conflict either (`carries_conflictFree`), but it may have
  taken out more.  Of the pass after a trial one needs only that the arcs which point at the new
  variable are in order at its end.
* If all arcs are in order at the start, arc consistency keeps them so (`carries_arcConsistent`).

The predicate has to answer alike in both orders: the inferences ask from the assigned variable to
the open one, and conflicts are counted the other way round.
-/

namespace BinaryCsp

variable {V T σ : Type} [DecidableEq V] [DecidableEq T] {P : Problem V T} {S : Backtracking P σ}

/-! ## Points that a search comes to -/

/-- From a world at its start a search comes to a point, in some world, by steps that move. -/
def Backtracking.Reached (S : Backtracking P σ) (w : World V T σ) (p : Point P)
    (w' : World V T σ) : Prop :=
  Relation.ReflTransGen
    (fun e f : Point P × World V T σ => S.step e.1 e.2 = .moves f.1 f.2) (.node .bottom, w) (p, w')

/-- **What every step preserves holds at every point that a search comes to.** -/
theorem Backtracking.Reached.induction {I : Point P → World V T σ → Prop} {R : Ending V T σ → Prop}
    (step : ∀ p w, I p w → (S.step p w).Meets I R) {w : World V T σ} (start : I (.node .bottom) w)
    {p : Point P} {w' : World V T σ} (h : S.Reached w p w') : I p w' := by
  suffices hall : ∀ e : Point P × World V T σ, Relation.ReflTransGen
      (fun e f => S.step e.1 e.2 = .moves f.1 f.2) (.node .bottom, w) e → I e.1 e.2 from hall _ h
  intro e he
  induction he with
  | refl => exact start
  | tail _ hmoves ih =>
    have hmeets := step _ _ ih
    rwa [hmoves] at hmeets

lemma Backtracking.Reached.moves {w w' w'' : World V T σ} {p q : Point P} (h : S.Reached w p w')
    (hstep : S.step p w' = .moves q w'') : S.Reached w q w'' :=
  Relation.ReflTransGen.tail h hstep

/-- **A solution is the assignment of a node** that the search comes to, and there it ends. -/
theorem Backtracking.exists_reached_of_solved {w w' : World V T σ} {b : Assignment V T}
    (h : S.search w = (.ok (.solved b), w')) :
    ∃ stack : Stack P b, S.Reached w (.node stack) w' ∧ b.size = P.vars.length := by
  refine run_induction (S := S) (I := fun p w' => S.Reached w p w')
    (R := fun ending => ∀ b w', ending = (.ok (.solved b), w') →
      ∃ stack : Stack P b, S.Reached w (.node stack) w' ∧ b.size = P.vars.length)
    (fun p w' hreached => ?_) Relation.ReflTransGen.refl b w' h
  cases hstep : S.step p w' with
  | moves q w'' => exact hreached.moves hstep
  | ends ending =>
    rintro b w'' rfl
    obtain ⟨stack, rfl, hsize, rfl⟩ := node_of_solved hstep
    exact ⟨stack, hreached, hsize⟩

/-- What a search carries from frame to frame holds at every node, and the domains there are part of
those at the start. -/
lemma Backtracking.Reached.carried {G : Assignment V T → (V → List T) → Prop}
    (hS : S.inference.Notes) (hG : S.Carries G) {w w' : World V T σ} {a : Assignment V T}
    {stack : Stack P a} (h : S.Reached w (.node stack) w')
    (hnd : ∀ v ∈ P.vars, (w.state.choices P v).Nodup) (hstart : G .empty (w.state.choices P)) :
    G a (w'.state.choices P) ∧ ∀ u, w'.state.choices P u ⊆ w.state.choices P u := by
  have hstart : w.state.Loses P w.state (Point.node (Stack.bottom : Stack P _)).outstanding ∧
      (Point.node (Stack.bottom : Stack P _)).Everywhere G (w.state.choices P) :=
    ⟨State.Loses.nil _, hstart⟩
  obtain ⟨hlost, heverywhere⟩ := h.induction
    (I := fun p w' => w.state.Loses P w'.state p.outstanding ∧ p.Everywhere G (w'.state.choices P))
    (fun p w' ⟨hlost, hp⟩ => carried_step hS hnd hG hlost hp) hstart
  exact ⟨Stack.Everywhere.top heverywhere,
    fun u => List.Subset.trans (List.subset_append_left _ _) (hlost u).subset⟩

/-! ## Current domains -/

/-- Once a variable is assigned there are current domains. -/
def Point.Made (p : Point P) (s : State V T) : Prop := ∀ v ∈ p.assignment, s.current ≠ none

lemma State.current_of_restore {s s' : State V T} {t : Trail V T}
    (h : s.restore P t = (.ok (), s')) (hmade : s.current ≠ none) : s'.current ≠ none := by
  obtain ⟨D, hD⟩ := Option.ne_none_iff_exists'.mp hmade
  simp only [restore, hD] at h
  rw [← (Prod.mk.inj h).2]
  exact Option.some_ne_none _

lemma World.current_of_restore {w w' : World V T σ} {t : Trail V T}
    (h : w.restore P t = (.ok (), w')) (hmade : w.state.current ≠ none) :
    w'.state.current ≠ none := by
  rcases hrestore : w.state.restore P t with ⟨answer, s⟩
  rw [restore, hrestore] at h
  cases h
  exact State.current_of_restore hrestore hmade

/-- The trial of a value makes current domains, and they stay. -/
lemma Tried.made {a : Assignment V T} {v : P.Open a} {x : T} {w : World V T σ} {verdict : Verdict}
    {t : Trial V T σ} (h : Tried S v x w verdict t) (hS : S.inference.Notes) :
    t.state.current ≠ none := by
  obtain ⟨trail, s, hsuppose, hinfer⟩ := h.inferred
  have hmade : s.current ≠ none := by
    rcases State.suppose_cases P w.state.countAssign v.val x with ⟨-, -, heq⟩ | ⟨f, heq⟩
    · cases heq.symm.trans hsuppose
      exact Option.some_ne_none _
    · cases heq.symm.trans hsuppose
  obtain ⟨d, -, -, hkept⟩ := hS v.val x (a.insert v.val x) ⟨{ w with state := s }, trail⟩
  rw [hinfer] at hkept
  exact fun hnone => hmade (hkept hnone).1

/-- **Current domains, once made, stay.** -/
theorem made_step (hS : S.inference.Notes) {p : Point P} {w : World V T σ} (h : p.Made w.state) :
    (S.step p w).Meets (fun q w' => q.Made w'.state) fun _ => True := by
  have hcases := pointStep S p w
  generalize S.step p w = next at hcases ⊢
  cases hcases with
  | node step =>
    cases step with
    | complete size => trivial
    | stop size poll => trivial
    | fault f c => trivial
    | branch size poll select order => exact h
  | back step =>
    cases step with
    | unsatisfiable => trivial
    | fault _ f w' => trivial
    | @resume a below u x trail untried w' restore =>
      have hmade : w.state.current ≠ none := h u.val (PartialMap.mem_insert.mpr (Or.inl rfl))
      have hkept := World.current_of_restore restore hmade
      exact fun _ _ => hkept
  | attempt step =>
    cases step with
    | conflict conflicts => exact h
    | fault f w' => trivial
    | descend tried => exact fun _ _ => tried.made hS
    | undo tried restore =>
      have hkept := World.current_of_restore restore (tried.made hS)
      exact fun _ _ => hkept
    | stop tried restore => trivial

lemma Backtracking.Reached.made (hS : S.inference.Notes) {w w' : World V T σ} {p : Point P}
    (h : S.Reached w p w') : p.Made w'.state :=
  h.induction (I := fun p w' => p.Made w'.state) (fun _ _ hmade => made_step hS hmade) nofun

omit [DecidableEq T] in
lemma State.currentDomain?_eq_ok {s : State V T} (hmade : s.current ≠ none) {v : V}
    (hv : v ∈ P.vars) : s.currentDomain? P v = .ok (s.choices P v) := by
  obtain ⟨D, hD⟩ := Option.ne_none_iff_exists'.mp hmade
  rw [currentDomain?, choices, domains, hD]
  exact if_pos hv

/-! ## Values without a conflict -/

section Free

omit [DecidableEq T]

variable {a : Assignment V T} {v : V} {x : T} (hv : v ∉ a)
include hv

/-- A value has no conflict with one assignment more if it had none before and goes with the new
value. -/
lemma Problem.conflicts_insert_eq_zero_iff {u : V} {z : T} :
    P.conflicts (a.insert v x) u z = 0
      ↔ P.conflicts a u z = 0 ∧ (u ∈ P.neighbors v → P.check u z v x = true) := by
  have hold : ∀ w y, a.get? w = some y → v ≠ w := by
    rintro w y hy rfl
    rw [PartialMap.get?_eq_none_iff.mpr hv] at hy
    cases hy
  simp only [Problem.conflicts_eq_zero_iff, PartialMap.get?_insert]
  constructor
  · intro h
    refine ⟨fun w hw y hy => h w hw y ?_, fun hn => h v (P.neighbors_symm _ _ hn) x (if_pos rfl)⟩
    rw [if_neg (hold w y hy)]
    exact hy
  · rintro ⟨h, hnew⟩ w hw y hy
    split at hy
    · rename_i hvw
      subst hvw
      rw [← Option.some.inj hy]
      exact hnew (P.neighbors_symm _ _ hw)
    · exact h w hw y hy

lemma Problem.free_insert (u : V) (xs : List T) :
    P.free (a.insert v x) u xs = if u ∈ P.neighbors v
      then (P.free a u xs).filter fun z => P.check u z v x
      else P.free a u xs := by
  split
  · rename_i hn
    rw [Problem.free, Problem.free, List.filter_filter]
    refine List.filter_congr fun z _ => ?_
    simp only [Problem.conflicts_insert_eq_zero_iff hv, hn, true_imp_iff, Bool.decide_and,
      Bool.decide_eq_true, Bool.and_comm]
  · rename_i hn
    refine List.filter_congr fun z _ => ?_
    simp only [Problem.conflicts_insert_eq_zero_iff hv, hn, false_imp_iff, and_true]

end Free

omit [DecidableEq T] in
/-- Nothing conflicts with no assignment. -/
lemma Problem.free_empty (u : V) (xs : List T) : P.free .empty u xs = xs :=
  List.filter_eq_self.mpr fun _ _ =>
    decide_eq_true (Problem.conflicts_eq_zero_iff.mpr fun _ _ _ hy => by cases hy)

/-- **Forward checking leaves to an open variable the values without a conflict**, and all of
them. -/
theorem carries_free (hsym : P.Symmetric) (hS : S.inference = .forwardChecking P)
    (start : V → List T) :
    S.Carries fun a avail => ∀ u, u ∉ a → (avail u).Perm (P.free a u (start u)) where
  perm hperm h u hu := (hperm u).symm.trans (h u hu)
  descend := by
    intro a v x w t tried h u hu
    have hopen := hu
    rw [PartialMap.mem_insert, not_or] at hopen
    have hperm := h u hopen.2
    rw [tried.choices_of_forwardChecking hS hu, Problem.free_insert v.property.2]
    split
    · rename_i hn
      have hask : ∀ z, P.check v.val x u z = P.check u z v.val x := fun z => hsym v.val u hn x z
      simp only [hask]
      exact hperm.filter _
    · exact hperm

/-- **Arc consistency leaves to an open variable only values without a conflict.** -/
theorem carries_conflictFree (hsym : P.Symmetric) {how : Propagator V T}
    (hS : S.inference = .arcConsistency P how) :
    S.Carries fun a avail => ∀ u, u ∉ a → ∀ z ∈ avail u, P.conflicts a u z = 0 where
  perm hperm h u hu z hz := h u hu z ((hperm u).mem_iff.mpr hz)
  descend := by
    intro a v x w t tried h u hu z hz
    rw [PartialMap.mem_insert, not_or] at hu
    obtain ⟨t₀, hchoices, hanswer, hstate⟩ := tried.exists_pass hS
    rw [hstate] at hz
    refine (Problem.conflicts_insert_eq_zero_iff v.property.2).mpr ⟨h u hu.2 z ?_, fun hn => ?_⟩
    · obtain ⟨d, -, -, hremoved⟩ := how.propagate_conserves P t₀.state
        (some (P.pointingAt v.val)) (some t₀.trail) t₀.context.limit
      have hz' := (hremoved u).2.subset hz
      rwa [hchoices, if_neg hu.1] at hz'
    · -- the arc that points at the new variable is in order, and that has one value left
      have hpins := how.choices_eq_singleton P t₀.state (Inference.onNeighbors_map v.val)
        (some t₀.trail) t₀.context.limit hanswer (u := v.val) (y := x) (by
          rw [hchoices, if_pos rfl])
      obtain ⟨y, hy, hcheck⟩ := how.consistentAt_of_consistent P t₀.state hsym
        (Inference.onNeighbors_map v.val) (some t₀.trail) t₀.context.limit hanswer
        (P.mem_pointingAt.mpr ⟨rfl, hn⟩ : (u, v.val) ∈ P.pointingAt v.val)
        z hz
      rw [State.choices] at hpins
      rw [hpins] at hy
      rwa [List.mem_singleton.mp hy] at hcheck

/-- **Arc consistency finds a partner for every value again**, if every value had one before. -/
theorem carries_arcConsistent (hsym : P.Symmetric) {how : Propagator V T}
    (hS : S.inference = .arcConsistency P how) :
    S.Carries fun _ avail => P.ArcConsistent fun v x => x ∈ avail v where
  perm hperm h v u hu x hx := by
    obtain ⟨y, hy, hcheck⟩ := h v u hu x ((hperm v).mem_iff.mpr hx)
    exact ⟨y, (hperm u).mem_iff.mp hy, hcheck⟩
  descend := by
    intro a v x w t tried h
    obtain ⟨trail, s, hsuppose, hinfer⟩ := tried.inferred
    rw [hS] at hinfer
    have horder := Inference.inOrder_arcConsistency how hsym (s := w.state.countAssign)
      (fun e he y hy => h e.1 e.2 he y hy) v.property.1 x (a.insert v.val x)
      (t := ⟨{ w with state := s }, trail⟩) (congrArg Prod.snd hsuppose).symm
      (congrArg Prod.fst hinfer)
    rw [hinfer] at horder
    exact fun u z hz y hy => horder (u, z) hz y hy

/-! ## What is known at a node -/

omit [DecidableEq T] in
/-- Without current domains the values left are those without a conflict. -/
lemma remaining_of_none {s : State V T} (h : s.current = none) (a : Assignment V T) (v : V) :
    remaining P s a v = (P.free a v (P.domain v)).length := by
  rw [remaining, h, Problem.free, ← List.countP_eq_length_filter]
  exact List.countP_congr fun x _ => by rw [beq_iff_eq, decide_eq_true_eq, Problem.conflicts]

omit [DecidableEq T] in
lemma remaining_of_ne_none {s : State V T} (h : s.current ≠ none) (a : Assignment V T) (v : V) :
    remaining P s a v = (s.choices P v).length := by
  obtain ⟨D, hD⟩ := Option.ne_none_iff_exists'.mp h
  rw [remaining, State.choices, State.domains, hD]
  rfl

omit [DecidableEq T] in
/-- Where exactly the declared values without a conflict are left, it is the same to count what is
left and to count what has no conflict. -/
lemma sizes_agree {s : State V T} {a : Assignment V T} {v : V}
    (h : (s.choices P v).Perm (P.free a v (P.domain v))) :
    (s.choices P v).length = (P.domain v).countP (fun x => decide (P.conflicts a v x = 0)) ∧
      remaining P s a v = (s.choices P v).length ∧
      remaining P .initial a v
        = (P.domain v).countP fun x => decide (P.conflicts a v x = 0) := by
  have hfree : (P.free a v (P.domain v)).length
      = (P.domain v).countP fun x => decide (P.conflicts a v x = 0) :=
    List.countP_eq_length_filter.symm
  refine ⟨h.length_eq.trans hfree, ?_, (remaining_of_none rfl a v).trans hfree⟩
  by_cases hcur : s.current = none
  · rw [remaining_of_none hcur, h.length_eq]
  · exact remaining_of_ne_none hcur a v

/-- Under every inference of the library the domains of the assigned variables are down to their
values. -/
lemma Backtracking.Reached.sole (hS : S.inference.BuiltIn) {w w' : World V T σ}
    (hnd : ∀ v ∈ P.vars, (w.state.choices P v).Nodup) {a : Assignment V T} {stack : Stack P a}
    (h : S.Reached w (.node stack) w') : a.Sole (w'.state.choices P) :=
  (h.carried hS.sound.notes (carries_sole hS.keepsSole) hnd (Assignment.sole_empty _)).1

/-- **Arc consistency keeps a problem in order throughout a search.**  If every value has a partner
in each neighbor at the start, every value that is left at a node has one among the values left. -/
theorem Backtracking.Reached.arcConsistent (hsym : P.Symmetric) {how : Propagator V T}
    (hS : S.inference = .arcConsistency P how) {w w' : World V T σ}
    (hnd : ∀ v ∈ P.vars, (w.state.choices P v).Nodup) (hstart : P.InOrder (w.state.domains P))
    {a : Assignment V T} {stack : Stack P a} (h : S.Reached w (.node stack) w') :
    P.InOrder (w'.state.domains P) := by
  have hnotes : S.inference.Notes := hS ▸ Inference.notes_arcConsistency how
  obtain ⟨hkept, -⟩ := h.carried hnotes (carries_arcConsistent hsym hS) hnd
    fun v u hu x hx => hstart (v, u) hu x hx
  exact fun e he x hx => hkept e.1 e.2 he x hx

/-- Under every inference of the library the current domain of an assigned variable is there, and
holds its value and nothing else. -/
lemma Backtracking.Reached.currentDomain?_eq_ok (hS : S.inference.BuiltIn) {w w' : World V T σ}
    (hnd : ∀ v ∈ P.vars, (w.state.choices P v).Nodup) {a : Assignment V T} {stack : Stack P a}
    (h : S.Reached w (.node stack) w') {u : V} {x : T} (hx : a.get? u = some x) :
    w'.state.currentDomain? P u = .ok [x] := by
  have hmem : u ∈ a := PartialMap.mem_iff_exists.mpr ⟨_, hx⟩
  rw [State.currentDomain?_eq_ok (h.made hS.sound.notes u hmem) (stack.declared u hmem),
    h.sole hS hnd u x hx]

/-- **Inference keeps the current domains in step with the assignment.**  Let a search come to a
node, with any orderings and any limit, from choices that list no value twice, and let the predicate
answer alike in both orders.  Under every inference of the library the current domain of an assigned
variable is there, and holds its value and nothing else.  An open variable has, under forward
checking, exactly the values of the start that have no conflict with the assignment; if the start
has all declared values, it is as large as the number of declared values without a conflict, and
these are the two numbers that `remaining` takes, with current domains and without.  Under arc
consistency, by either method and in any order of the arcs, an open variable has no other values
than those without a conflict. -/
theorem Backtracking.domains_follow_assignment (S : Backtracking P σ) (hS : S.inference.BuiltIn)
    (hsym : P.Symmetric) {w w' : World V T σ} (hnd : ∀ v ∈ P.vars, (w.state.choices P v).Nodup)
    {a : Assignment V T} {stack : Stack P a} (h : S.Reached w (.node stack) w') :
    (∀ u x, a.get? u = some x → w'.state.currentDomain? P u = .ok [x]) ∧
      (S.inference = .forwardChecking P → ∀ u ∈ P.vars, u ∉ a →
        (∀ x, x ∈ w'.state.choices P u ↔ x ∈ w.state.choices P u ∧ P.conflicts a u x = 0) ∧
          (w.state.choices P u = P.domain u →
            remaining P w'.state a u = remaining P .initial a u ∧
              (w'.state.choices P u).length
                = (P.domain u).countP (fun x => decide (P.conflicts a u x = 0)) ∧
              remaining P w'.state a u = (w'.state.choices P u).length ∧
              remaining P .initial a u
                = (P.domain u).countP fun x => decide (P.conflicts a u x = 0))) ∧
      ∀ how, S.inference = .arcConsistency P how → ∀ u ∈ P.vars, u ∉ a →
        ∀ x ∈ w'.state.choices P u, x ∈ w.state.choices P u ∧ P.conflicts a u x = 0 := by
  have hnotes := hS.sound.notes
  refine ⟨fun u x hx => h.currentDomain?_eq_ok hS hnd hx, fun hfc u hu hopen => ?_,
    fun how hmac u hu hopen x hx => ?_⟩
  · obtain ⟨hfree, -⟩ := h.carried hnotes (carries_free hsym hfc (w.state.choices P)) hnd
      fun u _ => by rw [Problem.free_empty]
    refine ⟨fun x => ?_, fun hstart => ?_⟩
    · rw [(hfree u hopen).mem_iff, Problem.free, List.mem_filter, decide_eq_true_eq]
    · obtain ⟨hsize, hleft, hcount⟩ := sizes_agree (hstart ▸ hfree u hopen)
      exact ⟨hleft.trans (hsize.trans hcount.symm), hsize, hleft, hcount⟩
  · obtain ⟨hnone, hsub⟩ := h.carried hnotes (carries_conflictFree hsym hmac) hnd
      fun u _ z _ => Problem.conflicts_eq_zero_iff.mpr fun _ _ _ hy => by cases hy
    exact ⟨hsub u hx, hnone u hopen x hx⟩

/-- Two numbers in ascending order, once the first is two: one of the two values of the second is
left, under forward checking and under arc consistency. -/
theorem Backtracking.domains_follow_assignment_ascending :
    let P := Problem.ascending [2, 1] [2, 3]
    let S : InferenceChoice → Backtracking P Unit := fun rule =>
      Options.backtracking { Options.standard with inference := rule } P
    let w : World Bool Nat Unit := ⟨.initial, .seeded 0 ()⟩
    let a : Assignment Bool Nat := PartialMap.empty.insert false 2
    P.Symmetric ∧ (∀ v ∈ P.vars, (w.state.choices P v).Nodup) ∧
      (∃ (stack : Stack P a) (w' : World Bool Nat Unit),
        (S .forwardChecking).Reached w (.node stack) w' ∧
        w'.state.currentDomain? P false = .ok [2] ∧ (w'.state.choices P true).length = 1 ∧
        remaining P w'.state a true = 1 ∧ remaining P .initial a true = 1) ∧
      ∃ (stack : Stack P a) (w' : World Bool Nat Unit),
        (S .arcConsistency).Reached w (.node stack) w' ∧
        w'.state.currentDomain? P false = .ok [2] ∧ 2 ∉ w'.state.choices P true := by
  intro P S w a
  have hS : ∀ rule, (S rule).inference.BuiltIn := fun _ => Options.builtIn_inference _ P
  have hsym : P.Symmetric := Problem.symmetric_ascending _ _
  have hnd : ∀ v ∈ P.vars, (w.state.choices P v).Nodup := by decide
  have hroot : ∀ rule, (S rule).Reached w (.node .bottom) w := fun _ => .refl
  refine ⟨hsym, hnd, ?_, ?_⟩
  · obtain ⟨stack, w', h⟩ : ∃ (stack : Stack P a) (w' : World Bool Nat Unit),
        (S .forwardChecking).Reached w (.node stack) w' :=
      ⟨.push .bottom ⟨false, by decide⟩ 2 _ _, _, ((hroot _).moves rfl).moves rfl⟩
    obtain ⟨hassigned, hopen, -⟩ := (S _).domains_follow_assignment (hS _) hsym hnd h
    obtain ⟨-, hsize, hleft, hcount⟩ := (hopen rfl true (by decide) (by decide)).2 rfl
    have hone : (P.domain true).countP (fun x => decide (P.conflicts a true x = 0)) = 1 := by decide
    exact ⟨stack, w', h, hassigned false 2 rfl, hsize.trans hone, hleft.trans (hsize.trans hone),
      hcount.trans hone⟩
  · -- the pass after the trial is run by its steps
    have hpass : ∀ t : Trial Bool Nat Unit, t.state.domains P = PartialMap.ofList
        [(false, [2]), (true, [2, 3])] → t.context.limit = .never →
        ((S .arcConsistency).inference.infer false 2 a t).1 = .ok .consistent := by
      intro t hdomains hlimit
      have hdeclared : false ∈ P.vars := by decide
      refine (Inference.arcConsistency_eq_propagate Options.standard.propagator hdeclared 2 a
        t).1.trans ?_
      rw [Propagator.propagate, hdomains, hlimit]
      exact Pass.read_run P _ _ Prod.fst 9 (by decide +kernel)
    obtain ⟨t, htried⟩ : ∃ t, Tried (S .arcConsistency) (a := .empty) ⟨false, by decide⟩ 2
        ⟨.initial, (Context.seeded 0 ()).countNode⟩ .consistent t :=
      ⟨_, by decide, _, _, rfl, Prod.ext (hpass _ rfl rfl) rfl⟩
    have h := ((hroot .arcConsistency).moves rfl).moves (htried.stepTry_eq .bottom [1])
    obtain ⟨hassigned, -, hopen⟩ := (S _).domains_follow_assignment (hS _) hsym hnd h
    refine ⟨_, _, h, hassigned false 2 rfl, fun hmem => ?_⟩
    exact absurd (hopen _ rfl true (by decide) (by decide) 2 hmem).2 (by decide)

end BinaryCsp
