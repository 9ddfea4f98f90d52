import BinaryCsp.Proofs.Search.Carried
import BinaryCsp.Proofs.Search.Counters

/-!
# The counters of a search balance

Every value that a search assigns is taken back or live: a value is counted as a backtrack when it
is undone, each time once, and the live ones are those of the frames.  So at every point the
assignments are the backtracks and the frames together (`Growth.BalancesAt`).  Two more sums go
along with it.  Between two picks of a variable a value is assigned, so there are hardly more nodes
than assignments, and just as many if no inference ever objects.  And an inference makes the same
number of propagation passes for each value that is tried, one or none
(`Inference.CountsPasses`).

When a search gives up, the frames that it undoes on its way out are not counted, nor is the value
whose inference was interrupted; so its assignments may exceed its backtracks, by no more than the
number of variables.

The sums hold of every search that has ended without a fault, with any predicate, any limit and any
starting domains (`Options.counters_balance`).
-/

namespace BinaryCsp

variable {V T σ : Type} [DecidableEq V] {P : Problem V T}

/-! ## What has been counted since the start -/

/-- By how much the counters of a search have grown. -/
structure Growth where
  nodes : Nat
  backtracks : Nat
  assignments : Nat
  propagations : Nat

/-- The counters have grown by so much since the start of a search.  Assignments are counted by the
problem, and are added to the statistics only when the search has ended. -/
structure World.GrownBy (start w : World V T σ) (g : Growth) : Prop where
  nodes : w.context.stats.nodesVisited = start.context.stats.nodesVisited + g.nodes
  backtracks : w.context.stats.backtracks = start.context.stats.backtracks + g.backtracks
  assigns : w.state.assigns = start.state.assigns + g.assignments
  propagations : w.context.stats.propagations = start.context.stats.propagations + g.propagations
  assignments : w.context.stats.assignments = start.context.stats.assignments

/-- The statistics have grown by so much. -/
structure Stats.GrownBy (before after : Stats) (g : Growth) : Prop where
  nodes : after.nodesVisited = before.nodesVisited + g.nodes
  backtracks : after.backtracks = before.backtracks + g.backtracks
  assignments : after.assignments = before.assignments + g.assignments
  propagations : after.propagations = before.propagations + g.propagations

/-- What the counters of a search say to its outcome, given the number of variables; more exactly
if the search is `sure`, that is, if no inference objects to a value. -/
def Growth.Balances (g : Growth) (size : Nat) (sure : Prop) : Outcome V T → Prop
  | .solved _ => g.assignments = g.backtracks + size ∧ g.nodes ≤ g.assignments ∧
      (sure → g.nodes = g.assignments)
  | .unsatisfiable => g.assignments = g.backtracks ∧ g.nodes ≤ g.assignments + 1 ∧
      (sure → g.nodes = g.assignments + 1)
  | .budgetExhausted => g.backtracks ≤ g.assignments ∧ g.assignments ≤ g.backtracks + size ∧
      g.nodes ≤ g.assignments + 1

/-! ## What inferences add -/

namespace Inference

/-- Whenever the inference comes to a verdict it counts so many propagation passes. -/
def CountsPasses (rule : Inference P σ) (passes : Nat) : Prop :=
  ∀ {v x a verdict} {t t' : Trial V T σ}, rule.infer v x a t = (.ok verdict, t') →
    t'.context.stats.propagations = t.context.stats.propagations + passes

/-- The inference never objects to a value, and is never interrupted. -/
def IsSure (rule : Inference P σ) : Prop :=
  ∀ {v x a verdict} {t t' : Trial V T σ}, rule.infer v x a t = (.ok verdict, t') →
    verdict = .consistent

lemma isSure_none : (Inference.none P : Inference P σ).IsSure := by
  intro v x a verdict t t' h
  cases h
  rfl

lemma countsPasses_none : (Inference.none P : Inference P σ).CountsPasses 0 := by
  intro v x a verdict t t' h
  cases h
  rfl

lemma propagations_narrowAll (v : V) (x : T) (ws : List V) (t : Trial V T σ) :
    (narrowAll P v x ws t).2.context.stats.propagations = t.context.stats.propagations := by
  induction ws generalizing t with
  | nil => rfl
  | cons w ws ih =>
    rw [narrowAll]
    split
    · rfl
    · exact ih _

lemma countsPasses_forwardChecking : (forwardChecking P : Inference P σ).CountsPasses 0 := by
  intro v x a verdict t t' h
  simp only [forwardChecking] at h
  split at h
  · cases h
  · cases h
    exact propagations_narrowAll v x _ { t with state := t.state.materialize P }

lemma countsPasses_arcConsistency [DecidableEq T] (how : Propagator V T) :
    (arcConsistency P how : Inference P σ).CountsPasses 1 := by
  intro v x a verdict t t' h
  simp only [arcConsistency] at h
  split at h
  · cases h
  · split at h
    · cases h
    · cases h
      rfl

end Inference

/-- The passes for each value that is tried. -/
def InferenceChoice.passes : InferenceChoice → Nat
  | .none | .forwardChecking => 0
  | .arcConsistency => 1

lemma Options.countsPasses [DecidableEq T] (o : Options) (P : Problem V T) :
    (o.backtracking P : Backtracking P σ).inference.CountsPasses o.inference.passes := by
  simp only [backtracking]
  cases o.inference with
  | none => exact Inference.countsPasses_none
  | forwardChecking => exact Inference.countsPasses_forwardChecking
  | arcConsistency => exact Inference.countsPasses_arcConsistency o.propagator

lemma Options.isSure [DecidableEq T] {o : Options} (h : o.inference = .none) (P : Problem V T) :
    (o.backtracking P : Backtracking P σ).inference.IsSure := by
  simp only [backtracking, h]
  exact Inference.isSure_none

/-! ## Undoing counts nothing by itself -/

section Grown

variable {start w w' : World V T σ} {g : Growth}

omit [DecidableEq V] in
lemma World.GrownBy.of_eq (h : start.GrownBy w g) (hassigns : w'.state.assigns = w.state.assigns)
    (hstats : w'.context.stats = w.context.stats) : start.GrownBy w' g where
  nodes := hstats ▸ h.nodes
  backtracks := hstats ▸ h.backtracks
  assigns := hassigns.trans h.assigns
  propagations := hstats ▸ h.propagations
  assignments := hstats ▸ h.assignments

omit [DecidableEq V] in
lemma World.GrownBy.countNode {s : State V T} {c : Context σ} (h : start.GrownBy ⟨s, c⟩ g) :
    start.GrownBy ⟨s, c.countNode⟩ { g with nodes := g.nodes + 1 } :=
  { h with nodes := congrArg Nat.succ h.nodes }

omit [DecidableEq V] in
lemma World.GrownBy.countBacktrack (h : start.GrownBy w g) :
    start.GrownBy w.countBacktrack { g with backtracks := g.backtracks + 1 } :=
  { h with backtracks := congrArg Nat.succ h.backtracks }

variable [DecidableEq T]

lemma State.assigns_restore (s : State V T) (t : Trail V T) :
    (s.restore P t).2.assigns = s.assigns := by
  rw [restore]
  split
  · split <;> rfl
  · rfl

lemma World.GrownBy.restore (h : start.GrownBy w g) {t : Trail V T}
    {answer : Except (Fault V T) Unit} (hrestore : w.restore P t = (answer, w')) :
    start.GrownBy w' g := by
  have hassigns := w.state.assigns_restore (P := P) t
  rcases hstate : w.state.restore P t with ⟨answer', s⟩
  rw [hstate] at hassigns
  rw [World.restore, hstate] at hrestore
  cases hrestore
  exact h.of_eq hassigns rfl

lemma World.GrownBy.unwind {a : Assignment V T} {stack : Stack P a} (h : start.GrownBy w g)
    (hunwind : stack.unwind w = (.ok (), w')) : start.GrownBy w' g := by
  induction stack generalizing w with
  | bottom =>
    cases hunwind
    exact h
  | push below v x trail untried ih =>
    rcases hrestore : w.restore P trail with ⟨answer, w₁⟩
    rw [Stack.unwind, hrestore] at hunwind
    cases answer with
    | error f => cases hunwind
    | ok _ => exact ih (h.restore hrestore) hunwind

/-- **A trial counts as one assignment** and as the passes of its inference. -/
lemma World.GrownBy.tried (h : start.GrownBy w g) {S : Backtracking P σ} (hS : S.LeavesCounts)
    {passes : Nat} (hpasses : S.inference.CountsPasses passes) {a : Assignment V T} {v : P.Open a}
    {x : T} {verdict : Verdict} {t : Trial V T σ} (htried : Tried S v x w verdict t) :
    start.GrownBy t.toWorld
      { g with assignments := g.assignments + 1, propagations := g.propagations + passes } := by
  have hcounted := htried.counted hS
  obtain ⟨trail, s, -, hinfer⟩ := htried.inferred
  exact {
    nodes := hcounted.nodes.trans h.nodes
    backtracks := hcounted.backtracks.trans h.backtracks
    assigns := hcounted.assigns.trans (congrArg Nat.succ h.assigns)
    propagations := by
      rw [hpasses hinfer, h.propagations, Nat.add_assoc]
    assignments := hcounted.assignments.trans h.assignments }

end Grown

/-! ## The sums at a point -/

/-- Variables that have been picked and wait for a value. -/
def Point.waiting : Point P → Nat
  | .node _ => 0
  | .choice _ _ _ => 1

/-- The sums at a point: the assignments are the backtracks and the frames, and each value was
assigned after one node more or, if no inference ever objects, after exactly one. -/
structure Growth.BalancesAt (g : Growth) (p : Point P) (sure : Prop) (passes : Nat) : Prop where
  live : g.assignments = g.backtracks + p.assignment.size
  nodes_le : g.nodes ≤ g.assignments + p.waiting
  nodes_eq : sure → g.nodes = g.assignments + p.waiting
  propagations : g.propagations = passes * g.assignments

lemma Stack.size_le {a : Assignment V T} (stack : Stack P a) : a.size ≤ P.vars.length := by
  rw [← PartialMap.length_keys]
  exact (List.subperm_of_subset a.nodup_keys stack.declared).length_le

/-- What is known of an ending that is no fault: the counters balance. -/
def Ending.Balances (start : World V T σ) (size : Nat) (sure : Prop) (passes : Nat)
    (ending : Ending V T σ) : Prop :=
  ∀ outcome, ending.1 = .ok outcome → ∃ g : Growth, start.GrownBy ending.2 g ∧
    g.Balances size sure outcome ∧ g.propagations = passes * g.assignments

section Steps

variable {S : Backtracking P σ} {start w : World V T σ} {sure : Prop} {passes : Nat}

omit [DecidableEq V] in
lemma Ending.balances_fault (size : Nat) (f : Fault V T) (w : World V T σ) :
    Ending.Balances start size sure passes (.error f, w) := nofun

/-- A search gives up balanced, if its frames and what it has just undone are no more than the
variables. -/
lemma Stack.balances_giveUp [DecidableEq T] {a : Assignment V T} (stack : Stack P a) {g : Growth}
    (hgrown : start.GrownBy w g) (hle : g.backtracks ≤ g.assignments)
    (hlive : g.assignments ≤ g.backtracks + P.vars.length) (hnodes : g.nodes ≤ g.assignments + 1)
    (hpasses : g.propagations = passes * g.assignments) :
    Ending.Balances start P.vars.length sure passes (stack.giveUp w) := by
  rcases stack.giveUp_cases w with ⟨w', hunwind, heq⟩ | ⟨f, w', heq⟩
  · rw [heq]
    rintro outcome ⟨⟩
    exact ⟨g, hgrown.unwind hunwind, ⟨hle, hlive, hnodes⟩, hpasses⟩
  · rw [heq]
    exact Ending.balances_fault _ f w'

variable [DecidableEq T]

/-- What is known of a point that a search has come to: the counters balance. -/
def Point.Balanced (start : World V T σ) (sure : Prop) (passes : Nat) (p : Point P)
    (w : World V T σ) : Prop :=
  ∃ g : Growth, start.GrownBy w g ∧ g.BalancesAt p sure passes

/-- From a node: one more node is counted if a variable is picked. -/
lemma balanced_node (hS : S.LeavesCounts) {a : Assignment V T} {stack : Stack P a}
    {next : Next P σ} (step : NodeStep S stack w next)
    (h : (Point.node stack).Balanced start sure passes w) :
    next.Meets (Point.Balanced start sure passes)
      (Ending.Balances start P.vars.length sure passes) := by
  obtain ⟨g, hgrown, hlive, hle, heq, hpasses⟩ := h
  cases step with
  | complete size =>
    rintro outcome ⟨⟩
    exact ⟨g, hgrown, ⟨hlive.trans (congrArg _ size), hle, heq⟩, hpasses⟩
  | stop size poll =>
    obtain rfl : w.context.poll.2 = _ := congrArg Prod.snd poll
    have hsize : a.size ≤ P.vars.length := stack.size_le
    have hlive : g.assignments = g.backtracks + a.size := hlive
    exact stack.balances_giveUp (hgrown.of_eq rfl rfl) (by omega) (by omega)
      (Nat.le_succ_of_le hle) hpasses
  | fault f c => exact Ending.balances_fault _ f _
  | @branch c c' c'' v xs size poll select order =>
    obtain rfl : w.context.poll.2 = c := congrArg Prod.snd poll
    have hselects := hS.selects w.state a (Context.countNode w.context.poll.2)
    have horders := hS.orders w.state a v.val c'
    rw [select] at hselects
    rw [order] at horders
    have hpolled : start.GrownBy ⟨w.state, w.context.poll.2⟩ g := hgrown.of_eq rfl rfl
    refine ⟨_, hpolled.countNode.of_eq rfl (horders.trans hselects), hlive, ?_, ?_, hpasses⟩
    · exact Nat.succ_le_succ hle
    · exact fun h => congrArg Nat.succ (heq h)

/-- Back to the frame below: the value that is undone counts as a backtrack. -/
lemma balanced_back {a : Assignment V T} {below : Stack P a} {v : P.Open a} {next : Next P σ}
    (step : BackStep w below next) (h : (Point.choice below v []).Balanced start sure passes w) :
    next.Meets (Point.Balanced start sure passes)
      (Ending.Balances start P.vars.length sure passes) := by
  obtain ⟨g, hgrown, hlive, hle, heq, hpasses⟩ := h
  cases step with
  | unsatisfiable =>
    rintro outcome ⟨⟩
    exact ⟨g, hgrown, ⟨hlive, hle, heq⟩, hpasses⟩
  | fault _ f w' => exact Ending.balances_fault _ f w'
  | @resume b below u x trail untried w' restore =>
    refine ⟨_, (hgrown.restore restore).countBacktrack, ?_, hle, heq, hpasses⟩
    have hsize : (b.insert u.val x).size = b.size + 1 := by
      rw [PartialMap.size_insert, if_neg u.property.2]
    have hlive : g.assignments = g.backtracks + (b.insert u.val x).size := hlive
    show g.assignments = g.backtracks + 1 + b.size
    omega

/-- The trial of a value: it is live, or undone and counted, or the search gives up. -/
lemma balanced_try (hS : S.LeavesCounts) (hpasses : S.inference.CountsPasses passes)
    (hsure : sure → S.inference.IsSure) {a : Assignment V T} {below : Stack P a} {v : P.Open a}
    {x : T} {xs : List T} {next : Next P σ} (step : TryStep S below v x xs w next)
    (h : (Point.choice below v (x :: xs)).Balanced start sure passes w) :
    next.Meets (Point.Balanced start sure passes)
      (Ending.Balances start P.vars.length sure passes) := by
  obtain ⟨g, hgrown, hlive, hle, heq, hsum⟩ := h
  have hlive : g.assignments = g.backtracks + a.size := hlive
  have hle : g.nodes ≤ g.assignments + 1 := hle
  have hsize : (a.insert v.val x).size = a.size + 1 := by
    rw [PartialMap.size_insert, if_neg v.property.2]
  have hpass : g.propagations + passes = passes * (g.assignments + 1) := by
    rw [hsum, Nat.mul_succ]
  -- a verdict against the value tells that the inference is not sure
  have hobjects : ∀ {verdict : Verdict} {t : Trial V T σ}, Tried S v x w verdict t →
      verdict ≠ .consistent → ¬ sure := by
    intro verdict t tried hverdict h
    obtain ⟨trail, s, -, hinfer⟩ := tried.inferred
    exact hverdict (hsure h hinfer)
  cases step with
  | conflict conflicts => exact ⟨g, hgrown, hlive, hle, heq, hsum⟩
  | fault f w' => exact Ending.balances_fault _ f w'
  | descend tried =>
    refine ⟨_, hgrown.tried hS hpasses tried, ?_, hle, heq, hpass⟩
    show g.assignments + 1 = g.backtracks + (a.insert v.val x).size
    omega
  | undo tried restore =>
    refine ⟨_, ((hgrown.tried hS hpasses tried).restore restore).countBacktrack, ?_,
      Nat.le_succ_of_le hle, fun h => absurd h (hobjects tried nofun), hpass⟩
    show g.assignments + 1 = g.backtracks + 1 + a.size
    omega
  | stop tried restore =>
    have hroom : a.size + 1 ≤ P.vars.length := by
      rw [← hsize]
      exact (below.push v x [] []).size_le
    exact below.balances_giveUp ((hgrown.tried hS hpasses tried).restore restore)
      (by dsimp only; omega) (by dsimp only; omega) (Nat.le_succ_of_le hle) hpass

/-- **One step** keeps the counters balanced. -/
theorem balanced_step (hS : S.LeavesCounts) (hpasses : S.inference.CountsPasses passes)
    (hsure : sure → S.inference.IsSure) {p : Point P} (h : p.Balanced start sure passes w) :
    (S.step p w).Meets (Point.Balanced start sure passes)
      (Ending.Balances start P.vars.length sure passes) := by
  have hcases := pointStep S p w
  generalize S.step p w = next at hcases ⊢
  cases hcases with
  | node step => exact balanced_node hS step h
  | back step => exact balanced_back step h
  | attempt step => exact balanced_try hS hpasses hsure step h

/-- **A whole search** ends with balanced counters, if it does not end with a fault. -/
theorem balances_search (hS : S.LeavesCounts) (hpasses : S.inference.CountsPasses passes)
    (hsure : sure → S.inference.IsSure) (w : World V T σ) :
    (S.search w).Balances w P.vars.length sure passes := by
  refine Backtracking.run_induction (I := Point.Balanced w sure passes)
    (fun _ _ h => balanced_step hS hpasses hsure h) ⟨⟨0, 0, 0, 0⟩, ⟨rfl, rfl, rfl, rfl, rfl⟩, ?_⟩
  exact ⟨rfl, Nat.le_refl _, fun _ => rfl, rfl⟩

end Steps

/-! ## The statistics -/

/-- When a search has ended its assignments are added to the statistics. -/
lemma World.GrownBy.concluded {start : World V T σ} {search : String} {ending : Ending V T σ}
    {g : Growth} (h : start.GrownBy ending.2 g) {outcome : Outcome V T} {w' : World V T σ}
    (hok : conclude P search start.state.assigns ending = (.ok outcome, w')) :
    Stats.GrownBy start.context.stats w'.context.stats g := by
  obtain ⟨-, rfl⟩ := eq_of_conclude _ _ _ hok
  refine ⟨h.nodes, h.backtracks, ?_, h.propagations⟩
  show ending.2.context.stats.assignments + (ending.2.state.assigns - start.state.assigns) = _
  rw [h.assignments, h.assigns, Nat.add_sub_cancel_left]

variable [DecidableEq T]

/-- **The counters of a search balance.**  Let a search with any combination of options, in any
world, have come to an outcome, and let its counters have grown meanwhile.  If it has solved the
problem, each assignment is a backtrack or belongs to a variable; if it has found that there is no
solution, each assignment is a backtrack; and if it gave up, there are at most as many more
assignments as variables.  There are no more nodes than assignments, or one more if there was no
solution; without inferences exactly so many.  Where arc consistency is inferred each assignment is
followed by one propagation pass, and otherwise there is none. -/
theorem Options.counters_balance (o : Options) (P : Problem V T) (w : World V T σ)
    {outcome : Outcome V T} {w' : World V T σ}
    (h : (o.backtracking P).toStrategy.solve w = (.ok outcome, w')) :
    ∃ g : Growth, Stats.GrownBy w.context.stats w'.context.stats g ∧
      g.Balances P.vars.length (o.inference = .none) outcome ∧
      g.propagations = if o.inference = .arcConsistency then g.assignments else 0 := by
  obtain ⟨hending, -⟩ := eq_of_conclude _ _ _ h
  obtain ⟨g, hgrown, hbalances, hpasses⟩ := balances_search (o.leavesCounts_backtracking P)
    (o.countsPasses P) (fun hnone => Options.isSure hnone P) w outcome hending
  refine ⟨g, hgrown.concluded h, hbalances, ?_⟩
  rw [hpasses]
  cases o.inference <;> simp [InferenceChoice.passes]

/-- Two numbers in ascending order that can not be: the first number is assigned and taken back, and
two nodes are visited, at the second of which no value is left. -/
theorem Options.counters_balance_ascending :
    let P := Problem.ascending [2] [1]
    let w : World Bool Nat Unit := ⟨.initial, .seeded 0 ()⟩
    ∃ w', (standard.backtracking P).toStrategy.solve w = (.ok .unsatisfiable, w') ∧
      w'.context.stats.backtracks = 1 ∧
      Stats.GrownBy w.context.stats w'.context.stats ⟨2, 1, 1, 0⟩ := by
  intro P w
  have hsearch : (((standard.backtracking P).search w).1,
      ((standard.backtracking P).search w).2.context.stats.backtracks)
        = (.ok .unsatisfiable, 1) := by
    rw [Backtracking.search, Backtracking.run_of_moves rfl, Backtracking.run_of_moves rfl,
      Backtracking.run_of_moves rfl, Backtracking.run_of_moves rfl, Backtracking.run_of_moves rfl,
      Backtracking.run_of_ends rfl]
    rfl
  rcases hs : (standard.backtracking P).search w with ⟨answer, w₁⟩
  rw [hs] at hsearch
  obtain ⟨rfl, hone⟩ := Prod.mk.injEq _ _ _ _ ▸ hsearch
  have hsolve : (standard.backtracking P).toStrategy.solve w =
      conclude P "backtracking search" w.state.assigns (.ok .unsatisfiable, w₁) :=
    congrArg (conclude P "backtracking search" w.state.assigns) hs
  obtain ⟨⟨nodes, backtracks, assignments, propagations⟩, hgrown, hbalances, hpasses⟩ :=
    counters_balance standard P w hsolve
  obtain rfl : backtracks = 1 := (Nat.zero_add _).symm.trans (hgrown.backtracks.symm.trans hone)
  obtain rfl : assignments = 1 := hbalances.1
  obtain rfl : nodes = 2 := hbalances.2.2 rfl
  obtain rfl : propagations = 0 := hpasses
  exact ⟨_, hsolve, hone, hgrown⟩

end BinaryCsp
