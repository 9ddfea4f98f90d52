import BinaryCsp.ArcQueue.Heap
import BinaryCsp.PartialMap

/-!
# The queue of arcs

An arc `(a, b)` asks that every value of `a` has support in `b`.  The queue is a set of arcs in
order of insertion.  For each there is an entry on a heap, with the priority that the arc had when
it came in and with the next free number, by which the entry is known.

An arc that is removed is taken out of the set, but its entry stays on the heap.  Such a left-over
entry is told by its number, also if its arc is queued again, and dropped when it comes up.

`pop` takes the entry that comes up first and asks for the priority of its arc anew.  If that has
dropped, the entry goes back on the heap at the new priority, under its old number, and the search
for the front starts over; if not, the arc leaves the queue.  Every restart makes the heap lighter,
so `pop` ends whatever answers it gets.  The asking may carry a state, for instance a count of the
questions.
-/

namespace BinaryCsp

/-- A set of arcs in order of insertion, with a heap that tells which comes first. -/
structure ArcQueue (V : Type) where
  heap : Heap V
  /-- The queued arcs, each with the number of its entry. -/
  numbers : PartialMap (Arc V) Nat
  /-- The number of the next entry. -/
  next : Nat
  numbered : ∀ e ∈ heap, e.number < next
  distinct : heap.entries.Pairwise fun e f => e.number ≠ f.number
  ascending : numbers.entries.Pairwise fun a b => a.2 < b.2
  entered : ∀ a ∈ numbers.entries, ∃ e ∈ heap, e.arc = a.1 ∧ e.number = a.2

namespace ArcQueue

variable {V : Type}

def empty : ArcQueue V where
  heap := .empty
  numbers := .empty
  next := 0
  numbered _ h := absurd h (Heap.not_mem_empty _)
  distinct := List.Pairwise.nil
  ascending := List.Pairwise.nil
  entered _ h := absurd h List.not_mem_nil

def toList (q : ArcQueue V) : List (Arc V) := q.numbers.keys

def size (q : ArcQueue V) : Nat := q.numbers.size

instance : Membership (Arc V) (ArcQueue V) := ⟨fun q arc => arc ∈ q.numbers⟩

theorem lt_next (q : ArcQueue V) {a : Arc V × Nat} (ha : a ∈ q.numbers.entries) : a.2 < q.next := by
  obtain ⟨e, he, -, hnumber⟩ := q.entered a ha
  exact hnumber ▸ q.numbered e he

variable [DecidableEq V]

instance (q : ArcQueue V) (arc : Arc V) : Decidable (arc ∈ q) :=
  inferInstanceAs (Decidable (arc ∈ q.numbers))

/-- An entry stands for a queued arc.  The others are left over from arcs that were removed. -/
def Live (q : ArcQueue V) (e : Entry V) : Prop := q.numbers.get? e.arc = some e.number

instance (q : ArcQueue V) (e : Entry V) : Decidable (q.Live e) :=
  inferInstanceAs (Decidable (_ = _))

theorem Live.mem {q : ArcQueue V} {e : Entry V} (h : q.Live e) : e.arc ∈ q := by
  change e.arc ∈ q.numbers
  rw [PartialMap.mem_iff_isSome, h]
  rfl

/-! ## Coming and going -/

/-- Adds an arc at the end.  An arc that is queued already keeps its place and its priority. -/
def push (q : ArcQueue V) (priority : Nat) (arc : Arc V) : ArcQueue V :=
  if new : arc ∈ q then q
  else {
    heap := q.heap.push ⟨priority, q.next, arc⟩
    numbers := q.numbers.insert arc q.next
    next := q.next + 1
    numbered := fun e he => by
      rcases Heap.mem_push.1 he with rfl | he
      · exact Nat.lt_succ_self _
      · exact Nat.lt_succ_of_lt (q.numbered e he)
    distinct := by
      refine (Heap.push_perm.pairwise_iff Ne.symm).2 (List.pairwise_cons.2 ⟨?_, q.distinct⟩)
      exact fun e he => (Nat.ne_of_lt (q.numbered e he)).symm
    ascending := by
      rw [PartialMap.entries_insert new]
      refine List.pairwise_append.2 ⟨q.ascending, List.pairwise_singleton _ _, fun a ha b hb => ?_⟩
      rw [List.mem_singleton.1 hb]
      exact q.lt_next ha
    entered := fun a ha => by
      rw [PartialMap.entries_insert new, List.mem_append, List.mem_singleton] at ha
      rcases ha with ha | rfl
      · obtain ⟨e, he, hentry⟩ := q.entered a ha
        exact ⟨e, Heap.mem_push.2 (Or.inr he), hentry⟩
      · exact ⟨_, Heap.mem_push.2 (Or.inl rfl), rfl, rfl⟩ }

/-- Takes an arc out of the set.  Its entry is left over. -/
def remove (q : ArcQueue V) (arc : Arc V) : ArcQueue V :=
  { q with
    numbers := q.numbers.erase arc
    ascending := q.ascending.sublist List.filter_sublist
    entered := fun a ha => q.entered a (List.mem_filter.1 ha).1 }

/-! ## The front -/

section Front

variable {q : ArcQueue V} {e : Entry V} {rest : Heap V}

/-- Drops a left-over entry. -/
def discard (q : ArcQueue V) (front : q.heap.pop? = some (e, rest)) (idle : ¬q.Live e) :
    ArcQueue V :=
  { q with
    heap := rest
    numbered := fun f hf => q.numbered f ((Heap.mem_of_pop? front).2 (Or.inr hf))
    distinct := (List.pairwise_cons.1 (Heap.entries_of_pop? front ▸ q.distinct)).2
    entered := fun a ha => by
      obtain ⟨f, hf, harc, hnumber⟩ := q.entered a ha
      rcases (Heap.mem_of_pop? front).1 hf with rfl | hf
      · refine absurd (PartialMap.get?_eq_some_iff.2 ?_) idle
        rw [harc, hnumber]
        exact ha
      · exact ⟨f, hf, harc, hnumber⟩ }

/-- Puts the first entry back on the heap at another priority. -/
def lower (q : ArcQueue V) (front : q.heap.pop? = some (e, rest)) (priority : Nat) : ArcQueue V :=
  { q with
    heap := rest.push { e with priority := priority }
    numbered := fun f hf => by
      rcases Heap.mem_push.1 hf with rfl | hf
      · exact q.numbered e ((Heap.mem_of_pop? front).2 (Or.inl rfl))
      · exact q.numbered f ((Heap.mem_of_pop? front).2 (Or.inr hf))
    distinct := by
      refine (Heap.push_perm.pairwise_iff Ne.symm).2 (List.pairwise_cons.2 ?_)
      exact List.pairwise_cons.1 (Heap.entries_of_pop? front ▸ q.distinct)
    entered := fun a ha => by
      obtain ⟨f, hf, hentry⟩ := q.entered a ha
      rcases (Heap.mem_of_pop? front).1 hf with rfl | hf
      · exact ⟨_, Heap.mem_push.2 (Or.inl rfl), hentry⟩
      · exact ⟨f, Heap.mem_push.2 (Or.inr hf), hentry⟩ }

theorem not_live_remove (q : ArcQueue V) (e : Entry V) : ¬(q.remove e.arc).Live e := by
  simp [Live, remove]

/-- Takes out the arc of the first entry, and drops that entry. -/
def takeFront (q : ArcQueue V) (front : q.heap.pop? = some (e, rest)) : ArcQueue V :=
  (q.remove e.arc).discard front (not_live_remove q e)

theorem weight_discard {front : q.heap.pop? = some (e, rest)} {idle : ¬q.Live e} :
    (q.discard front idle).heap.weight < q.heap.weight := by
  rw [Heap.weight_of_pop? front]
  change rest.weight < _
  omega

omit [DecidableEq V] in
theorem weight_lower {front : q.heap.pop? = some (e, rest)} {priority : Nat}
    (h : priority < e.priority) : (q.lower front priority).heap.weight < q.heap.weight := by
  rw [Heap.weight_of_pop? front]
  change (rest.push _).weight < _
  rw [Heap.weight_push]
  change priority + 1 + rest.weight < _
  omega

end Front

/-- Takes out the arc of the highest current priority.  `ask` tells the current priority of an
arc. -/
def pop {σ : Type} (ask : Arc V → σ → Nat × σ) (q : ArcQueue V) (s : σ) :
    Option (Arc V × ArcQueue V) × σ :=
  match _front : q.heap.pop? with
  | none => (none, s)
  | some (e, _) =>
    if _live : q.Live e then
      match ask e.arc s with
      | (priority, s) =>
        if _lower : priority < e.priority then pop ask (q.lower _front priority) s
        else (some (e.arc, q.takeFront _front), s)
    else pop ask (q.discard _front _live) s
termination_by q.heap.weight
decreasing_by
  · exact weight_lower _lower
  · exact weight_discard

/-- **An arc leaves the queue at each pop.** -/
theorem size_of_pop {σ : Type} {ask : Arc V → σ → Nat × σ} {q rest : ArcQueue V} {s t : σ}
    {arc : Arc V} (h : q.pop ask s = (some (arc, rest), t)) : rest.size < q.size := by
  fun_induction pop ask q s with
  | case1 => cases h
  | case2 q s e heap front live priority s' hask lower ih => exact ih h
  | case3 q s e heap front live priority s' hask lower =>
    cases h
    exact PartialMap.size_erase_lt live.mem
  | case4 q s e heap front idle ih => exact ih h

end ArcQueue

end BinaryCsp
