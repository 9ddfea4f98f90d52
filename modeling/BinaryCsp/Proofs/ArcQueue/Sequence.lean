import BinaryCsp.Proofs.Propagation.Step
import Mathlib.Data.List.Nodup

/-!
# The queue as a sequence

`ArcQueue.toList` is the sequence of the queued arcs, each listed once, in the order in which they
came in.  `Answers` says what each operation does to such a sequence and what it replies, without a
word of heaps, entries or numbers; `Runs` says so of operations one after another.

The queue keeps to it (`ArcQueue.runs_replay`) as long as no arc that waits gains priority
(`ArcQueue.Fair`).  A stored priority is then an upper bound of the current one
(`ArcQueue.Bounds`), so the entry that comes up first, once it is found to be up to date, has the
highest current priority; and the numbers of the entries ascend along the sequence, so of equal
priorities the earliest comes up (`ArcQueue.foremost_of_front`).  Entries that are left over do not
count, and dropping them changes nothing.
-/

namespace BinaryCsp

/-- The first item of the highest key: the keys in front of it are lower, and those behind it are
no higher. -/
def Foremost {α : Type} (key : α → Nat) (l : List α) (x : α) : Prop :=
  ∃ before after, l = before ++ x :: after ∧
    (∀ y ∈ before, key y < key x) ∧ ∀ y ∈ after, key y ≤ key x

namespace ArcQueue

variable {V : Type}

/-! ## The sequence -/

lemma nodup_toList (q : ArcQueue V) : q.toList.Nodup := q.numbers.nodup_keys

lemma length_toList (q : ArcQueue V) : q.toList.length = q.size := q.numbers.length_keys

lemma mem_toList {q : ArcQueue V} {arc : Arc V} : arc ∈ q.toList ↔ arc ∈ q := Iff.rfl

variable [DecidableEq V]

lemma toList_push (q : ArcQueue V) (priority : Nat) (arc : Arc V) :
    (q.push priority arc).toList = if arc ∈ q then q.toList else q.toList ++ [arc] := by
  rw [push]
  split
  · rfl
  · rename_i new
    exact (q.numbers.keys_insert arc q.next).trans (if_neg new)

lemma toList_remove (q : ArcQueue V) (arc : Arc V) :
    (q.remove arc).toList = q.toList.erase arc := by
  rw [q.nodup_toList.erase_eq_filter]
  change (q.numbers.entries.filter _).map Prod.fst = (q.numbers.entries.map Prod.fst).filter _
  rw [List.filter_map]
  refine congrArg _ (List.filter_congr fun a _ => ?_)
  by_cases h : a.1 = arc <;> simp [h]

/-! ## Stored priorities -/

/-- The priority that a queued arc was last stored with. -/
def Stored (q : ArcQueue V) (arc : Arc V) (priority : Nat) : Prop :=
  ∃ e ∈ q.heap, q.Live e ∧ e.arc = arc ∧ e.priority = priority

/-- The arc of each number that is taken has an entry that stands for it. -/
lemma exists_live {q : ArcQueue V} {a : Arc V × Nat} (ha : a ∈ q.numbers.entries) :
    ∃ e ∈ q.heap, q.Live e ∧ e.arc = a.1 ∧ e.number = a.2 := by
  obtain ⟨e, he, harc, hnumber⟩ := q.entered a ha
  refine ⟨e, he, PartialMap.get?_eq_some_iff.mpr ?_, harc, hnumber⟩
  rw [harc, hnumber]
  exact ha

/-- Two entries that stand for one arc are the same. -/
lemma Live.eq {q : ArcQueue V} {e f : Entry V} (he : e ∈ q.heap) (hf : f ∈ q.heap)
    (hlive : q.Live e) (hlive' : q.Live f) (harc : e.arc = f.arc) : e = f := by
  have hnumber : e.number = f.number := by
    refine Option.some.inj (hlive.symm.trans ?_)
    rw [harc]
    exact hlive'
  exact List.inj_on_of_nodup_map (List.pairwise_map.mpr q.distinct) he hf hnumber

/-- **Each queued arc has one stored priority.** -/
theorem existsUnique_stored {q : ArcQueue V} {arc : Arc V} (h : arc ∈ q) :
    ∃! priority, q.Stored arc priority := by
  obtain ⟨a, ha, rfl⟩ := List.mem_map.mp h
  obtain ⟨e, he, hlive, harc, -⟩ := exists_live ha
  refine ⟨e.priority, ⟨e, he, hlive, harc, rfl⟩, ?_⟩
  rintro _ ⟨f, hf, hlive', harc', rfl⟩
  rw [Live.eq hf he hlive' hlive (harc'.trans harc.symm)]

/-- No queued arc has a current priority above the one that it was last stored with. -/
def Bounds (q : ArcQueue V) (current : Arc V → Nat) : Prop :=
  ∀ arc priority, q.Stored arc priority → current arc ≤ priority

section Bounds

variable {q : ArcQueue V} {current : Arc V → Nat}

lemma Bounds.le (h : q.Bounds current) {e : Entry V} (he : e ∈ q.heap) (hlive : q.Live e) :
    current e.arc ≤ e.priority :=
  h e.arc e.priority ⟨e, he, hlive, rfl, rfl⟩

lemma bounds_of_forall (h : ∀ e ∈ q.heap, q.Live e → current e.arc ≤ e.priority) :
    q.Bounds current := by
  rintro _ _ ⟨e, he, hlive, rfl, rfl⟩
  exact h e he hlive

lemma bounds_empty : (empty : ArcQueue V).Bounds current :=
  bounds_of_forall fun e he => absurd he (Heap.not_mem_empty e)

/-- Priorities may drop. -/
lemma Bounds.mono (h : q.Bounds current) {later : Arc V → Nat}
    (hle : ∀ arc, later arc ≤ current arc) : q.Bounds later :=
  fun arc priority hstored => Nat.le_trans (hle arc) (h arc priority hstored)

lemma Bounds.push (h : q.Bounds current) {priority : Nat} {arc : Arc V}
    (hle : current arc ≤ priority) : (q.push priority arc).Bounds current := by
  rw [ArcQueue.push]
  split
  · exact h
  · rename_i new
    refine bounds_of_forall fun e he hlive => ?_
    rcases Heap.mem_push.mp he with rfl | he
    · exact hle
    · -- an older entry stands for another arc, since the new one has a new number
      have hget : (q.numbers.insert arc q.next).get? e.arc = some e.number := hlive
      rw [PartialMap.get?_insert] at hget
      split at hget
      · have hlt := q.numbered e he
        rw [← Option.some.inj hget] at hlt
        exact absurd hlt (Nat.lt_irrefl _)
      · exact h.le he hget

lemma Bounds.remove (h : q.Bounds current) (arc : Arc V) : (q.remove arc).Bounds current := by
  refine bounds_of_forall fun e he hlive => h.le he ?_
  have hget : (q.numbers.erase arc).get? e.arc = some e.number := hlive
  rw [PartialMap.get?_erase] at hget
  split at hget
  · cases hget
  · exact hget

variable {e : Entry V} {rest : Heap V} {front : q.heap.pop? = some (e, rest)}

lemma Bounds.discard {idle : ¬q.Live e} (h : q.Bounds current) :
    (q.discard front idle).Bounds current :=
  bounds_of_forall fun _ hf hlive => h.le ((Heap.mem_of_pop? front).mpr (Or.inr hf)) hlive

lemma Bounds.lower (h : q.Bounds current) {priority : Nat} (hle : current e.arc ≤ priority) :
    (q.lower front priority).Bounds current := by
  refine bounds_of_forall fun f hf hlive => ?_
  rcases Heap.mem_push.mp hf with rfl | hf
  · exact hle
  · exact h.le ((Heap.mem_of_pop? front).mpr (Or.inr hf)) hlive

end Bounds

/-! ## The front -/

section Front

variable {q : ArcQueue V} {current : Arc V → Nat}

/-- An entry that comes up first and is up to date has the highest current priority, and those that
came in before it have a lower one. -/
lemma le_of_front {e : Entry V} {rest : Heap V} (front : q.heap.pop? = some (e, rest))
    (hq : q.Bounds current) {a : Arc V × Nat} (ha : a ∈ q.numbers.entries) :
    current a.1 ≤ e.priority ∧ (a.2 < e.number → current a.1 < e.priority) := by
  obtain ⟨f, hf, hlive, harc, hnumber⟩ := exists_live ha
  have hbound := hq.le hf hlive
  have hbefore := Heap.not_before_of_pop? front hf
  rw [harc] at hbound
  rw [Entry.Before, hnumber] at hbefore
  omega

/-- **The arc whose entry comes up first and is up to date is foremost.** -/
theorem foremost_of_front {e : Entry V} {rest : Heap V} (front : q.heap.pop? = some (e, rest))
    (hq : q.Bounds current) (live : q.Live e) (fresh : e.priority ≤ current e.arc) :
    Foremost current q.toList e.arc := by
  obtain ⟨before, after, hsplit⟩ := List.append_of_mem (PartialMap.get?_eq_some_iff.mp live)
  have hascending := q.ascending
  rw [hsplit, List.pairwise_append] at hascending
  obtain ⟨-, -, hearlier⟩ := hascending
  refine ⟨before.map Prod.fst, after.map Prod.fst, ?_, ?_, ?_⟩
  · rw [toList, PartialMap.keys, hsplit, List.map_append, List.map_cons]
  · intro arc harc
    obtain ⟨a, ha, rfl⟩ := List.mem_map.mp harc
    have hmem : a ∈ q.numbers.entries := hsplit ▸ List.mem_append_left _ ha
    have hlt := (le_of_front front hq hmem).2 (hearlier a ha _ List.mem_cons_self)
    exact Nat.lt_of_lt_of_le hlt fresh
  · intro arc harc
    obtain ⟨a, ha, rfl⟩ := List.mem_map.mp harc
    have hmem : a ∈ q.numbers.entries :=
      hsplit ▸ List.mem_append_right _ (List.mem_cons_of_mem _ ha)
    exact Nat.le_trans (le_of_front front hq hmem).1 fresh

/-- **Popping takes the foremost arc**, and leaves stored priorities that still are bounds. -/
theorem foremost_of_pop {σ : Type} {ask : Arc V → σ → Nat × σ}
    (hask : ∀ arc s, (ask arc s).1 = current arc) {s t : σ} {arc : Arc V} {rest : ArcQueue V}
    (hq : q.Bounds current) (h : q.pop ask s = (some (arc, rest), t)) :
    Foremost current q.toList arc ∧ rest.toList = q.toList.erase arc ∧ rest.Bounds current := by
  fun_induction pop ask q s with
  | case1 => cases h
  | case2 q s e heap front live priority s' hanswer lower ih =>
    have hcurrent : priority = current e.arc := by rw [← hask e.arc s, hanswer]
    exact ih (hq.lower (Nat.le_of_eq hcurrent.symm)) h
  | case3 q s e heap front live priority s' hanswer fresh =>
    have hcurrent : priority = current e.arc := by rw [← hask e.arc s, hanswer]
    cases h
    refine ⟨foremost_of_front front hq live ?_, q.toList_remove e.arc, (hq.remove e.arc).discard⟩
    exact hcurrent ▸ Nat.le_of_not_lt fresh
  | case4 q s e heap front idle ih => exact ih hq.discard h

end Front

/-! ## Operations -/

/-- What can be asked of a queue that changes it. -/
inductive Operation (V : Type) where
  | push (priority : Nat) (arc : Arc V)
  | remove (arc : Arc V)
  /-- Takes the front arc, given the current priorities. -/
  | pop (current : Arc V → Nat)

inductive Reply (V : Type) where
  | done
  | removed (wasQueued : Bool)
  | popped (arc : Option (Arc V))

/-- Carries out an operation. -/
def perform (q : ArcQueue V) : Operation V → Reply V × ArcQueue V
  | .push priority arc => (.done, q.push priority arc)
  | .remove arc => (.removed (decide (arc ∈ q)), q.remove arc)
  | .pop current =>
    match q.pop (fun arc u => (current arc, u)) () with
    | (none, _) => (.popped none, q)
    | (some (arc, rest), _) => (.popped (some arc), rest)

/-- Carries out operations one after another, and lists them with the replies. -/
def replay (q : ArcQueue V) : List (Operation V) → List (Operation V × Reply V) × ArcQueue V
  | [] => ([], q)
  | op :: ops =>
    let (reply, after) := q.perform op
    let (replies, final) := after.replay ops
    ((op, reply) :: replies, final)

/-- Whenever the front arc is taken, no queued arc has gained priority since it was stored. -/
def Fair (q : ArcQueue V) : List (Operation V) → Prop
  | [] => True
  | op :: ops => (∀ current, op = .pop current → q.Bounds current) ∧ (q.perform op).2.Fair ops

/-- What an operation does to a sequence of arcs, and what it replies. -/
inductive Answers : List (Arc V) → Operation V → Reply V → List (Arc V) → Prop where
  | append {l : List (Arc V)} {priority : Nat} {arc : Arc V} (new : arc ∉ l) :
      Answers l (.push priority arc) .done (l ++ [arc])
  | ignore {l : List (Arc V)} {priority : Nat} {arc : Arc V} (queued : arc ∈ l) :
      Answers l (.push priority arc) .done l
  | delete {l : List (Arc V)} {arc : Arc V} (queued : arc ∈ l) :
      Answers l (.remove arc) (.removed true) (l.erase arc)
  | absent {l : List (Arc V)} {arc : Arc V} (missing : arc ∉ l) :
      Answers l (.remove arc) (.removed false) l
  | front {l : List (Arc V)} {current : Arc V → Nat} {arc : Arc V}
      (foremost : Foremost current l arc) :
      Answers l (.pop current) (.popped (some arc)) (l.erase arc)
  | nothing {current : Arc V → Nat} : Answers [] (.pop current) (.popped none) []

/-- What operations one after another do to a sequence of arcs. -/
inductive Runs : List (Arc V) → List (Operation V × Reply V) → List (Arc V) → Prop where
  | nil (l : List (Arc V)) : Runs l [] l
  | cons {l l' l'' : List (Arc V)} {op : Operation V} {reply : Reply V}
      {replies : List (Operation V × Reply V)} (first : Answers l op reply l')
      (others : Runs l' replies l'') : Runs l ((op, reply) :: replies) l''

/-- **Each operation does to the queue what it does to the sequence.** -/
theorem answers_perform (q : ArcQueue V) (op : Operation V)
    (hfair : ∀ current, op = .pop current → q.Bounds current) :
    Answers q.toList op (q.perform op).1 (q.perform op).2.toList := by
  cases op with
  | push priority arc =>
    rw [perform, toList_push]
    split
    · rename_i queued
      exact .ignore queued
    · rename_i new
      exact .append new
  | remove arc =>
    rw [perform, toList_remove]
    by_cases queued : arc ∈ q
    · rw [decide_eq_true queued]
      exact .delete queued
    · have missing : arc ∉ q.toList := queued
      rw [decide_eq_false queued, List.erase_of_not_mem missing]
      exact .absent missing
  | pop current =>
    rw [perform]
    split
    · rename_i hpop
      have hnil : q.toList = [] := List.eq_nil_iff_forall_not_mem.mpr (not_mem_of_pop_eq_none hpop)
      rw [hnil]
      exact .nothing
    · rename_i arc rest _ hpop
      have hask : ∀ (arc : Arc V) (u : Unit), (current arc, u).1 = current arc := fun _ _ => rfl
      obtain ⟨hforemost, hrest, -⟩ := foremost_of_pop hask (hfair current rfl) hpop
      rw [hrest]
      exact .front hforemost

/-- **Replayed operations run as on the sequence.** -/
theorem runs_replay (q : ArcQueue V) (ops : List (Operation V)) (hfair : q.Fair ops) :
    Runs q.toList (q.replay ops).1 (q.replay ops).2.toList := by
  induction ops generalizing q with
  | nil => exact .nil _
  | cons op ops ih =>
    obtain ⟨hfirst, hothers⟩ := hfair
    exact .cons (q.answers_perform op hfirst) (ih (q.perform op).2 hothers)

end ArcQueue

end BinaryCsp
