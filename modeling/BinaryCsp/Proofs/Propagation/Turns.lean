import BinaryCsp.Proofs.ArcQueue.Sequence
import BinaryCsp.Proofs.Propagation.Revision
import Mathlib.Logic.Relation

/-!
# Whose turn it is in a pass

An order of arcs is *steady* if no arc gains priority while domains lose values
(`ArcOrder.Steady`).  The arc with the largest target is such an order.

Under a steady order the stored priorities bound the current ones throughout a pass
(`Pass.InTurn`): they are right when an arc is queued, the pass only ever shortens domains, and
taking the front arc keeps the bounds.  So each step takes the foremost of all queued arcs
(`Pass.foremost_of_reached`).  `ArcQueue.serves_by_priority` puts that beside the law of the queue
itself, under any operations.
-/

namespace BinaryCsp

open Support

variable {V T : Type} [DecidableEq V]

/-- No arc gains priority while domains lose values, and asking changes nothing. -/
def ArcOrder.Steady (order : ArcOrder V T) : Prop :=
  ∀ (n m : Nat) (D E : Domains V T) (a b : V),
    (∀ v, (E.listAt v).length ≤ (D.listAt v).length) →
      order.priority m E a b ≤ order.priority n D a b

/-- The number of values of a target drops with its domain. -/
lemma ArcOrder.steady_largestTarget : (largestTarget : ArcOrder V T).Steady :=
  fun _ _ _ _ _ b h => h b

/-- A steady order answers alike, however often it was asked before. -/
lemma ArcOrder.Steady.priority_eq {order : ArcOrder V T} (h : order.Steady) (n m : Nat)
    (D : Domains V T) (a b : V) : order.priority n D a b = order.priority m D a b :=
  Nat.le_antisymm (h m n D D a b fun _ => Nat.le_refl _) (h n m D D a b fun _ => Nat.le_refl _)

namespace Pass

/-- The current priorities of a pass. -/
def priorities (order : ArcOrder V T) (p : Pass V T) (e : Arc V) : Nat :=
  order.priority 0 p.domains e.1 e.2

/-- No queued arc has a priority above the one it was last stored with. -/
def InTurn (order : ArcOrder V T) (p : Pass V T) : Prop := p.queue.Bounds (p.priorities order)

/-! ## The parts of a visit -/

section Parts

variable {order : ArcOrder V T} {p : Pass V T} (horder : order.Steady)
include horder

lemma inTurn_enqueue (hp : p.InTurn order) (arc : Arc V) : (p.enqueue order arc).InTurn order :=
  ArcQueue.Bounds.push hp (Nat.le_of_eq (horder.priority_eq 0 p.clock p.domains arc.1 arc.2))

lemma inTurn_foldl_enqueue (hp : p.InTurn order) (arcs : List (Arc V)) :
    (arcs.foldl (enqueue order) p).InTurn order := by
  induction arcs generalizing p with
  | nil => exact hp
  | cons arc arcs ih => exact ih (inTurn_enqueue horder hp arc)

lemma inTurn_requeue (hp : p.InTurn order) (P : Problem V T) (v except : V) :
    (p.requeue P order v except).InTurn order := by
  rw [requeue_eq_foldl]
  exact inTurn_foldl_enqueue horder hp _

lemma inTurn_cut (hp : p.InTurn order) {v : V} {left gone : List T}
    (hshort : p.shortens v left = true) : (p.cut v left gone).InTurn order := by
  refine ArcQueue.Bounds.mono hp fun e => horder 0 0 _ _ e.1 e.2 fun w => ?_
  show ((p.domains.insert v left).listAt w).length ≤ _
  rw [PartialMap.listAt_insert]
  split
  · rename_i hw
    exact hw ▸ Nat.le_of_lt (of_decide_eq_true hshort)
  · exact Nat.le_refl _

lemma inTurn_shrink (hp : p.InTurn order) (P : Problem V T) (v except : V)
    (left gone : List T) : (p.shrink P order v except left gone).InTurn order := by
  rw [shrink]
  split
  · rename_i hshort
    exact inTurn_requeue horder (inTurn_cut horder hp hshort) P v except
  · exact hp

omit horder in
lemma inTurn_countChecks (hp : p.InTurn order) (n : Nat) : (p.countChecks n).InTurn order := hp

variable [DecidableEq T]

lemma inTurn_settleReverse (hp : p.InTurn order) (P : Problem V T) (a b : V)
    (known : Partition T T) : (p.settleReverse P order a b known).InTurn order := by
  rw [settleReverse]
  split
  · have hremove : InTurn order { p with queue := p.queue.remove (b, a) } :=
      ArcQueue.Bounds.remove hp (b, a)
    exact inTurn_shrink horder (inTurn_countChecks hremove _) P b a _ _
  · exact hp

lemma inTurn_visitAc3 (hp : p.InTurn order) (P : Problem V T) (a b : V) :
    (p.visitAc3 P order a b).pass.InTurn order := by
  rw [visitAc3]
  split
  · split
    · dsimp only
      split
      · rename_i hshort
        split
        · exact inTurn_cut horder (inTurn_countChecks hp _) hshort
        · exact inTurn_requeue horder (inTurn_cut horder (inTurn_countChecks hp _) hshort) P a b
      · exact inTurn_countChecks hp _
    · exact hp
  · exact hp

lemma inTurn_visitAc3b (hp : p.InTurn order) (P : Problem V T) (a b : V) :
    (p.visitAc3b P order a b).pass.InTurn order := by
  rw [visitAc3b]
  split
  · split
    · dsimp only
      have hcount := inTurn_countChecks hp (Partition.of (fun x y => P.check a x b y)
        (p.domains.listAt a) (p.domains.listAt b)).checks
      split
      · exact hcount
      · exact inTurn_settleReverse horder (inTurn_shrink horder hcount P a b _ _) P a b _
    · exact hp
  · exact hp

end Parts

/-! ## Steps and runs -/

section Steps

/-- One pass leads to another by steps that go on. -/
def Reached [DecidableEq T] (P : Problem V T) (how : Propagator V T) : Pass V T → Pass V T → Prop :=
  Relation.ReflTransGen fun p q => p.step P how = .goesOn q

variable {how : Propagator V T} {p q : Pass V T} (horder : how.order.Steady)
include horder

/-- **The foremost arc is taken**, and the others keep their places. -/
theorem foremost_of_next? (hp : p.InTurn how.order) {arc : Arc V}
    (h : p.next? how = (some arc, q)) :
    Foremost (p.priorities how.order) p.queue.toList arc ∧
      q.queue.toList = p.queue.toList.erase arc ∧ q.InTurn how.order := by
  rw [next?] at h
  split at h
  · cases h
  · rename_i hpop
    cases h
    exact ArcQueue.foremost_of_pop
      (fun arc n => horder.priority_eq n 0 p.domains arc.1 arc.2) hp hpop

theorem inTurn_visit [DecidableEq T] (hp : p.InTurn how.order) (P : Problem V T) (arc : Arc V) :
    (p.visit P how arc).pass.InTurn how.order := by
  rw [visit]
  cases how.method with
  | ac3 => exact inTurn_visitAc3 horder hp P arc.1 arc.2
  | ac3b => exact inTurn_visitAc3b horder hp P arc.1 arc.2

theorem inTurn_step [DecidableEq T] {P : Problem V T} (hp : p.InTurn how.order)
    (h : p.step P how = .goesOn q) : q.InTurn how.order := by
  rw [step] at h
  split at h
  · cases h
  · rename_i arc r hnext
    obtain ⟨-, -, hr⟩ := foremost_of_next? horder hp hnext
    split at h
    · cases h
    · rename_i t hpoll
      obtain rfl : { r with limit := r.limit.poll.2 } = t := congrArg Prod.snd hpoll
      have hvisit := inTurn_visit horder (p := { r with limit := r.limit.poll.2 }) hr P arc
      rw [h] at hvisit
      exact hvisit

lemma inTurn_start (D : Domains V T) (arcs : List (Arc V)) (limit : Limit) :
    (start how D arcs limit).InTurn how.order := by
  have hempty : (⟨D, [], .empty, 0, limit, 0, 0⟩ : Pass V T).InTurn how.order :=
    ArcQueue.bounds_empty
  exact inTurn_foldl_enqueue horder hempty arcs

/-- The stored priorities are bounds throughout a pass. -/
theorem inTurn_of_reached [DecidableEq T] {P : Problem V T} {D : Domains V T}
    {arcs : List (Arc V)} {limit : Limit} (h : Reached P how (start how D arcs limit) p) :
    p.InTurn how.order := by
  induction h with
  | refl => exact inTurn_start horder D arcs limit
  | tail _ hstep ih => exact inTurn_step horder ih hstep

/-- **At each step of a pass the foremost of all queued arcs is taken.** -/
theorem foremost_of_reached [DecidableEq T] {P : Problem V T} {D : Domains V T}
    {arcs : List (Arc V)} {limit : Limit} (hreached : Reached P how (start how D arcs limit) p)
    {arc : Arc V} (h : p.next? how = (some arc, q)) :
    Foremost (p.priorities how.order) p.queue.toList arc ∧
      q.queue.toList = p.queue.toList.erase arc := by
  obtain ⟨hforemost, hrest, -⟩ := foremost_of_next? horder (inTurn_of_reached horder hreached) h
  exact ⟨hforemost, hrest⟩

end Steps

end Pass

/-! ## The queue and the pass -/

/-- **The queue serves by priority, and equal priorities in order of insertion.**  Whatever is asked
of a new queue, as long as no arc that waits has gained priority when the front is taken, each
operation does to the queue and replies what it should do to a sequence of different arcs
(`ArcQueue.Answers`): a new arc is appended and a queued one ignored, an arc is deleted and
reported, and the front is the first arc of the highest current priority, missing exactly if no arc
is left.  Size and membership are those of the sequence, and each arc of it has one stored priority.

In a pass by the largest target no arc gains priority.  So every step of it, by either method, takes
an arc whose target has the most values of the targets of all queued arcs, and of such arcs the one
that waits longest. -/
theorem ArcQueue.serves_by_priority {V T : Type} [DecidableEq V] [DecidableEq T] :
    (∀ ops : List (Operation V), (empty : ArcQueue V).Fair ops →
      let (replies, q) := (empty : ArcQueue V).replay ops
      Runs [] replies q.toList ∧ q.toList.Nodup ∧ q.size = q.toList.length ∧
        (∀ arc, arc ∈ q ↔ arc ∈ q.toList) ∧ ∀ arc ∈ q, ∃! priority, q.Stored arc priority) ∧
      ∀ (method : Method) (P : Problem V T) (D : Domains V T) (arcs : List (Arc V)) (limit : Limit)
        (p q : Pass V T) (arc : Arc V),
        let how : Propagator V T := ⟨method, .largestTarget⟩
        Pass.Reached P how (Pass.start how D arcs limit) p → p.next? how = (some arc, q) →
          Foremost (fun e => (p.domains.listAt e.2).length) p.queue.toList arc ∧
            q.queue.toList = p.queue.toList.erase arc := by
  constructor
  · intro ops hfair
    let q := ((empty : ArcQueue V).replay ops).2
    exact ⟨runs_replay empty ops hfair, q.nodup_toList, q.length_toList.symm, fun _ => Iff.rfl,
      fun _ => existsUnique_stored⟩
  · intro method P D arcs limit p q arc how hreached hnext
    exact Pass.foremost_of_reached ArcOrder.steady_largestTarget hreached hnext

/-- An arc is removed and queued again behind one that has lost priority since, and then the front
is taken; a pass over numbers in ascending order is at its first step. -/
theorem ArcQueue.serves_by_priority_ascending :
    let ops : List (Operation Bool) := [.push 2 (false, true), .push 3 (true, false),
      .remove (false, true), .push 2 (false, true), .pop fun arc => if arc.1 then 1 else 2]
    let P := Problem.ascending [1, 2, 3] [2, 3]
    let how : Propagator Bool Nat := ⟨.ac3b, .largestTarget⟩
    let p := Pass.start how P.baseline P.arcs .never
    ((empty : ArcQueue Bool).Fair ops ∧
      Runs [] ((empty : ArcQueue Bool).replay ops).1
        ((empty : ArcQueue Bool).replay ops).2.toList) ∧
      Pass.Reached P how p p ∧ ∃ arc q, p.next? how = (some arc, q) ∧
        Foremost (fun e => (p.domains.listAt e.2).length) p.queue.toList arc := by
  intro ops P how p
  obtain ⟨hops, hpass⟩ := serves_by_priority (V := Bool) (T := Nat)
  have hfair : (empty : ArcQueue Bool).Fair ops := by
    refine ⟨nofun, nofun, nofun, nofun, ?_, trivial⟩
    rintro current ⟨⟩
    have hfirst : ((empty : ArcQueue Bool).push 2 (false, true)).Bounds
        fun arc => if arc.1 then 1 else 2 := bounds_empty.push (by decide)
    have hsecond : (((empty : ArcQueue Bool).push 2 (false, true)).push 3 (true, false)).Bounds
        fun arc => if arc.1 then 1 else 2 := hfirst.push (by decide)
    exact (hsecond.remove (false, true)).push (by decide)
  have hreached : Pass.Reached P how p p := .refl
  refine ⟨⟨hfair, (hops ops hfair).1⟩, hreached, ?_⟩
  rcases Pass.next?_cases how p with ⟨_, -, hempty⟩ | ⟨arc, rest, clock, hnext, -⟩
  · exact absurd ((Pass.mem_start how _ _ _ _).mpr (by decide)) (hempty (false, true))
  · exact ⟨arc, _, hnext, (hpass .ac3b P P.baseline P.arcs .never p _ arc hreached hnext).1⟩

end BinaryCsp
