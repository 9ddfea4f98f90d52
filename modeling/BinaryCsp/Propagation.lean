import BinaryCsp.ArcQueue
import BinaryCsp.Limit
import BinaryCsp.Propagation.Support
import BinaryCsp.State

/-!
# Arc consistency

A propagation pass takes arcs off a queue until the queue is empty, a domain turns out to have no
supported value, or the limit says stop.  Two methods revise an arc `(a, b)`:

* **`ac3`** removes every value of `a` without support in `b`.
* **`ac3b`** tests both domains at once (`Support.Partition`).  If the reverse arc is queued as
  well, it is taken out and settled on the spot: only the values of `b` that have not given support
  are tested, and only against the values of `a` that have some.

When a domain shrinks, the arcs of its other neighbors are queued again.

A pass ends for every order of the queue and every limit: each step shortens a domain or takes an
arc off the queue (`visit_decreases`).
-/

namespace BinaryCsp

open Support

/-- What a pass, or an inference, has concluded. -/
inductive Verdict where
  /-- No domain became empty. -/
  | consistent
  /-- Some domain has no value left that could be part of a solution. -/
  | inconsistent
  /-- The limit said stop; nothing is proven. -/
  | interrupted
  deriving DecidableEq

/-- Which queued arc is taken up first: the higher the priority, the earlier.  The first argument
counts the questions asked so far, so that priorities may change from one question to the next. -/
structure ArcOrder (V T : Type) where
  priority : Nat → Domains V T → V → V → Nat

namespace ArcOrder

variable {V T : Type} [DecidableEq V]

/-- First in, first out. -/
def insertion : ArcOrder V T := ⟨fun _ _ _ _ => 0⟩

/-- First the arcs whose target has most values. -/
def largestTarget : ArcOrder V T := ⟨fun _ D _ b => (D.listAt b).length⟩

end ArcOrder

/-- How an arc is revised. -/
inductive Method where
  | ac3
  | ac3b
  deriving DecidableEq

def Method.name : Method → String
  | ac3 => "AC3"
  | ac3b => "AC3b"

/-- A method together with an order of the queue. -/
structure Propagator (V T : Type) where
  method : Method
  order : ArcOrder V T

/-- What a pass has done so far. -/
structure Pass (V T : Type) where
  domains : Domains V T
  removed : Trail V T
  queue : ArcQueue V
  clock : Nat
  limit : Limit
  checks : Nat
  prunings : Nat

/-- Whether a pass goes on after an arc. -/
inductive Visit (V T : Type) where
  | goesOn (pass : Pass V T)
  | ends (answer : Except (Fault V T) Verdict) (pass : Pass V T)

variable {V T : Type} [DecidableEq V] [DecidableEq T]

namespace Pass

/-! ## The parts of a step -/

def countChecks (n : Nat) (p : Pass V T) : Pass V T := { p with checks := p.checks + n }

omit [DecidableEq T] in
/-- Asks for the priority of an arc and queues it. -/
def enqueue (order : ArcOrder V T) (p : Pass V T) (arc : Arc V) : Pass V T :=
  { p with
    queue := p.queue.push (order.priority p.clock p.domains arc.1 arc.2) arc
    clock := p.clock + 1 }

/-- Queues the arcs of all neighbors of a variable but one. -/
def requeue (P : Problem V T) (order : ArcOrder V T) (v except : V) (p : Pass V T) : Pass V T :=
  ((P.neighbors v).filter fun w => !decide (w = except)).foldl
    (fun p w => p.enqueue order (w, v)) p

/-- Cuts a domain down to the values that are left, and notes those that are gone. -/
def cut (v : V) (left gone : List T) (p : Pass V T) : Pass V T :=
  { p with
    domains := p.domains.insert v left
    removed := p.removed ++ gone.map fun x => (v, x)
    prunings := p.prunings + gone.length }

/-- Whether a domain has more values than are left. -/
def shortens (p : Pass V T) (v : V) (left : List T) : Bool :=
  decide (left.length < (p.domains.listAt v).length)

/-- Cuts a domain down and, if that shortens it, queues the arcs of all neighbors of the variable
but one. -/
def shrink (P : Problem V T) (order : ArcOrder V T) (v except : V) (left gone : List T)
    (p : Pass V T) : Pass V T :=
  if p.shortens v left then (p.cut v left gone).requeue P order v except else p

/-! ## Revising one arc -/

/-- The values that can give support: those of the target, but on an arc from a variable to itself
the values removed so far no longer count. -/
def supporters (a b : V) (targets : List T) (gone : Array T) : List T :=
  if a = b then eraseAll targets gone.toList else targets

/-- What is left of the domain of `a`: the values with support, but on an arc from a variable to
itself the removed values go one by one, and of equal values the first. -/
def remnant (a b : V) (values : List T) (found : Sifted T) : List T :=
  if a = b then eraseAll values found.removed.toList else found.kept.toList

/-- Removes every value of `a` without support in `b`. -/
def visitAc3 (P : Problem V T) (order : ArcOrder V T) (a b : V) (p : Pass V T) : Visit V T :=
  if a ∈ P.vars then
    if b ∈ P.vars ∨ p.domains.listAt a = [] then
      let found := sift (fun x y => P.check a x b y) (supporters a b (p.domains.listAt b))
        (p.domains.listAt a)
      let p := p.countChecks found.checks
      let left := remnant a b (p.domains.listAt a) found
      if p.shortens a left then
        let p := p.cut a left found.removed.toList
        if p.domains.listAt a = [] then .ends (.ok .inconsistent) p
        else .goesOn (p.requeue P order a b)
      else .goesOn p
    else .ends (.error (.unknownVariable b)) p
  else .ends (.error (.unknownVariable a)) p

/-- Settles the reverse arc `(b, a)` if it is queued, from what testing `(a, b)` has shown. -/
def settleReverse (P : Problem V T) (order : ArcOrder V T) (a b : V) (known : Partition T T)
    (p : Pass V T) : Pass V T :=
  if (b, a) ∈ p.queue then
    let supported := known.supported.toList
    let found := sift (fun y x => P.check b y a x) (fun _ => supported) known.unproven
    let gone := found.removed.toList
    ({ p with queue := p.queue.remove (b, a) }.countChecks found.checks).shrink P order b a
      (known.without (p.domains.listAt b) gone) gone
  else p

/-- Tests both domains of an arc at once, and settles the reverse arc if it is queued. -/
def visitAc3b (P : Problem V T) (order : ArcOrder V T) (a b : V) (p : Pass V T) : Visit V T :=
  if a ∈ P.vars then
    if b ∈ P.vars then
      let known := Partition.of (fun x y => P.check a x b y) (p.domains.listAt a)
        (p.domains.listAt b)
      let p := p.countChecks known.checks
      if known.supported.isEmpty then .ends (.ok .inconsistent) p
      else
        let p := p.shrink P order a b known.supported.toList known.unsupported.toList
        .goesOn (p.settleReverse P order a b known)
    else .ends (.error (.unknownVariable b)) p
  else .ends (.error (.unknownVariable a)) p

def visit (P : Problem V T) (how : Propagator V T) (arc : Arc V) (p : Pass V T) : Visit V T :=
  match how.method with
  | .ac3 => p.visitAc3 P how.order arc.1 arc.2
  | .ac3b => p.visitAc3b P how.order arc.1 arc.2

/-! ## Why a pass ends

A step may lengthen the queue only if it shortens a domain. -/

/-- One pass stands no later than another: its domains are smaller, or they are equally large and
its queue is no longer. -/
def AtMost (p q : Pass V T) : Prop :=
  p.domains.total < q.domains.total ∨
    p.domains.total = q.domains.total ∧ p.queue.size ≤ q.queue.size

/-- One pass stands before another: its domains are smaller, or they are equally large and its
queue is shorter. -/
def Precedes (p q : Pass V T) : Prop :=
  p.domains.total < q.domains.total ∨
    p.domains.total = q.domains.total ∧ p.queue.size < q.queue.size

omit [DecidableEq V] [DecidableEq T] in
theorem precedes_wf : WellFounded (Precedes (V := V) (T := T)) := by
  refine Subrelation.wf (r := InvImage (Prod.Lex (· < ·) (· < ·))
    fun p : Pass V T => (p.domains.total, p.queue.size)) ?_
    (InvImage.wf _ (Prod.lex Nat.lt_wfRel Nat.lt_wfRel).wf)
  intro p q h
  rcases h with h | ⟨h, h'⟩
  · exact Prod.Lex.left _ _ h
  · change Prod.Lex _ _ (p.domains.total, _) (q.domains.total, _)
    rw [h]
    exact Prod.Lex.right _ h'

omit [DecidableEq V] [DecidableEq T] in
theorem AtMost.trans {p q r : Pass V T} (h : p.AtMost q) (h' : q.AtMost r) : p.AtMost r := by
  rw [AtMost] at *
  omega

omit [DecidableEq T] in
@[simp] theorem domains_enqueue (order : ArcOrder V T) (p : Pass V T) (arc : Arc V) :
    (p.enqueue order arc).domains = p.domains := rfl

omit [DecidableEq V] [DecidableEq T] in
@[simp] theorem domains_countChecks (n : Nat) (p : Pass V T) :
    (p.countChecks n).domains = p.domains := rfl

omit [DecidableEq T] in
@[simp] theorem domains_requeue (P : Problem V T) (order : ArcOrder V T) (v except : V)
    (p : Pass V T) : (p.requeue P order v except).domains = p.domains := by
  rw [requeue]
  generalize (P.neighbors v).filter _ = ws
  induction ws generalizing p with
  | nil => rfl
  | cons w ws ih => simp [ih]

omit [DecidableEq T] in
theorem total_cut_lt {p : Pass V T} {v : V} {left gone : List T} (h : p.shortens v left) :
    (p.cut v left gone).domains.total < p.domains.total := by
  have h' := of_decide_eq_true h
  have := p.domains.total_insert v left
  simp only [cut]
  omega

omit [DecidableEq T] in
theorem shrink_atMost (P : Problem V T) (order : ArcOrder V T) (v except : V)
    (left gone : List T) (p : Pass V T) : (p.shrink P order v except left gone).AtMost p := by
  rw [shrink]
  split
  · rename_i h
    exact Or.inl (by simpa using total_cut_lt h)
  · exact Or.inr ⟨rfl, Nat.le_refl _⟩

theorem settleReverse_atMost (P : Problem V T) (order : ArcOrder V T) (a b : V)
    (known : Partition T T) (p : Pass V T) : (p.settleReverse P order a b known).AtMost p := by
  rw [settleReverse]
  split
  · refine (shrink_atMost P order b a _ _ _).trans (Or.inr ⟨rfl, ?_⟩)
    exact PartialMap.size_erase_le _ _
  · exact Or.inr ⟨rfl, Nat.le_refl _⟩

/-- **A visit lengthens the queue only if it shortens a domain.** -/
theorem visit_atMost {P : Problem V T} {how : Propagator V T} {arc : Arc V} {p p' : Pass V T}
    (h : p.visit P how arc = .goesOn p') : p'.AtMost p := by
  rw [visit] at h
  split at h
  · unfold visitAc3 at h
    split at h
    · split at h
      · dsimp only at h
        split at h
        · rename_i hs
          split at h
          · cases h
          · cases h
            exact Or.inl (by simpa using total_cut_lt hs)
        · cases h
          exact Or.inr ⟨rfl, Nat.le_refl _⟩
      · cases h
    · cases h
  · unfold visitAc3b at h
    split at h
    · split at h
      · dsimp only at h
        split at h
        · cases h
        · cases h
          refine (settleReverse_atMost P how.order _ _ _ _).trans ?_
          exact (shrink_atMost P how.order _ _ _ _ _).trans (Or.inr ⟨rfl, Nat.le_refl _⟩)
      · cases h
    · cases h

/-- The pass with the front arc taken off its queue, and that arc. -/
def next? (how : Propagator V T) (p : Pass V T) : Option (Arc V) × Pass V T :=
  match p.queue.pop (fun arc n => (how.order.priority n p.domains arc.1 arc.2, n + 1)) p.clock with
  | (none, clock) => (none, { p with clock := clock })
  | (some (arc, queue), clock) => (some arc, { p with queue := queue, clock := clock })

omit [DecidableEq T] in
theorem next?_precedes {how : Propagator V T} {p p' : Pass V T} {arc : Arc V}
    (h : p.next? how = (some arc, p')) : p'.Precedes p := by
  rw [next?] at h
  split at h
  · cases h
  · rename_i hp
    cases h
    exact Or.inr ⟨rfl, ArcQueue.size_of_pop hp⟩

/-- The pass after asking its limit, and the answer. -/
def poll (p : Pass V T) : Bool × Pass V T := (p.limit.poll.1, { p with limit := p.limit.poll.2 })

/-- One step: takes the front arc, asks the limit, revises the arc. -/
def step (P : Problem V T) (how : Propagator V T) (p : Pass V T) : Visit V T :=
  match p.next? how with
  | (none, p) => .ends (.ok .consistent) p
  | (some arc, p) =>
    match p.poll with
    | (true, p) => .ends (.ok .interrupted) p
    | (false, p) => p.visit P how arc

/-- **Every step that goes on leads to a pass that stands before.** -/
theorem step_precedes {P : Problem V T} {how : Propagator V T} {p p' : Pass V T}
    (h : p.step P how = .goesOn p') : p'.Precedes p := by
  rw [step] at h
  split at h
  · cases h
  · rename_i arc q hn
    have hq := next?_precedes hn
    split at h
    · cases h
    · rename_i r hp
      obtain rfl : { q with limit := q.limit.poll.2 } = r := congrArg Prod.snd hp
      have := visit_atMost h
      simp only [AtMost] at this
      simp only [Precedes] at *
      omega

/-- Takes steps until the pass ends. -/
def run (P : Problem V T) (how : Propagator V T) (p : Pass V T) :
    Except (Fault V T) Verdict × Pass V T :=
  match _next : p.step P how with
  | .ends answer p => (answer, p)
  | .goesOn p => run P how p
termination_by precedes_wf.wrap p
decreasing_by exact step_precedes _next

/-- The pass that starts with the given arcs. -/
def start (how : Propagator V T) (D : Domains V T) (arcs : List (Arc V)) (limit : Limit) :
    Pass V T :=
  arcs.foldl (enqueue how.order) ⟨D, [], .empty, 0, limit, 0, 0⟩

end Pass

/-! ## The propagator -/

/-- All arcs of a problem: each variable in declaration order with each of its neighbors. -/
def Problem.arcs {V T : Type} [DecidableEq V] (P : Problem V T) : List (Arc V) :=
  P.vars.flatMap fun v => (P.neighbors v).map fun w => (v, w)

/-- What a pass leaves behind. -/
structure Propagation (V T : Type) where
  answer : Except (Fault V T) Verdict
  state : State V T
  /-- The trail that was given, with what the pass removed at its end. -/
  trail : Option (Trail V T)
  limit : Limit
  checks : Nat
  prunings : Nat

/-- Runs a pass on the current domains, making them if need be.  It starts from the given arcs, or
from all.  What it removes goes to the end of the trail, if there is one. -/
def Propagator.propagate (how : Propagator V T) (P : Problem V T) (s : State V T)
    (arcs : Option (List (Arc V))) (trail : Option (Trail V T)) (limit : Limit) :
    Propagation V T :=
  match (Pass.start how (s.domains P) (arcs.getD P.arcs) limit).run P how with
  | (answer, pass) => {
      answer := answer
      state := s.withDomains pass.domains
      trail := trail.map (· ++ pass.removed)
      limit := pass.limit
      checks := pass.checks
      prunings := pass.prunings }

end BinaryCsp
