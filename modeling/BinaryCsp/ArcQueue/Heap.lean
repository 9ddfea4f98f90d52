/-!
# A heap of arcs

An entry of the heap is an arc with a priority and a number.  Of two entries that with the higher
priority comes up first; of equal priorities, that with the lower number.

A `Heap` is the list of its entries in the order in which they come up.  `mem_push` and
`mem_of_pop?` say what is on it after each operation, and `not_before_of_pop?` that no entry comes
up while one is left that should come up before it.
-/

namespace BinaryCsp

/-- A directed pair of variables. -/
abbrev Arc (V : Type) := V × V

/-- An arc on a heap. -/
structure Entry (V : Type) where
  priority : Nat
  number : Nat
  arc : Arc V

variable {V : Type}

namespace Entry

/-- One entry comes up before another. -/
def Before (e f : Entry V) : Prop :=
  f.priority < e.priority ∨ f.priority = e.priority ∧ e.number < f.number

instance (e f : Entry V) : Decidable (e.Before f) :=
  inferInstanceAs (Decidable (_ ∨ _ ∧ _))

theorem Before.asymm {e f : Entry V} (h : e.Before f) : ¬f.Before e := by
  simp only [Before] at *
  omega

/-- Of entries none of which comes up before the one in front of it, the last does not come up
before the first. -/
theorem not_before_trans {e f g : Entry V} (hf : ¬f.Before e) (hg : ¬g.Before f) :
    ¬g.Before e := by
  simp only [Before] at *
  omega

/-- Puts an entry in its place. -/
def enter (e : Entry V) : List (Entry V) → List (Entry V)
  | [] => [e]
  | f :: fs => if f.Before e then f :: enter e fs else e :: f :: fs

theorem enter_perm (e : Entry V) (es : List (Entry V)) : (enter e es).Perm (e :: es) := by
  induction es with
  | nil => exact .refl _
  | cons f fs ih =>
    rw [enter]
    split
    · exact (ih.cons f).trans (.swap e f fs)
    · exact .refl _

theorem mem_enter {e f : Entry V} {es : List (Entry V)} : f ∈ enter e es ↔ f = e ∨ f ∈ es :=
  (enter_perm e es).mem_iff.trans List.mem_cons

/-- Entries in the order in which they come up. -/
def Ordered (es : List (Entry V)) : Prop := es.Pairwise fun e f => ¬f.Before e

theorem ordered_enter {e : Entry V} {es : List (Entry V)} (h : Ordered es) :
    Ordered (enter e es) := by
  induction es with
  | nil => exact List.pairwise_singleton _ _
  | cons f fs ih =>
    obtain ⟨hf, hfs⟩ := List.pairwise_cons.1 h
    rw [enter]
    split
    · rename_i hfe
      refine List.pairwise_cons.2 ⟨fun g hg => ?_, ih hfs⟩
      rcases mem_enter.1 hg with rfl | hg
      · exact hfe.asymm
      · exact hf g hg
    · rename_i hfe
      refine List.pairwise_cons.2 ⟨fun g hg => ?_, h⟩
      rcases List.mem_cons.1 hg with rfl | hg
      · exact hfe
      · exact not_before_trans hfe (hf g hg)

end Entry

/-- Entries, the first to come up in front. -/
structure Heap (V : Type) where
  entries : List (Entry V)
  ordered : Entry.Ordered entries

namespace Heap

instance : Membership (Entry V) (Heap V) := ⟨fun h e => e ∈ h.entries⟩

def empty : Heap V := ⟨[], List.Pairwise.nil⟩

def push (h : Heap V) (e : Entry V) : Heap V := ⟨e.enter h.entries, Entry.ordered_enter h.ordered⟩

/-- The entry that comes up first, and the others. -/
def pop? : Heap V → Option (Entry V × Heap V)
  | ⟨[], _⟩ => none
  | ⟨e :: es, ordered⟩ => some (e, ⟨es, (List.pairwise_cons.1 ordered).2⟩)

/-- The sum of the priorities, and one more for each entry. -/
def weight (h : Heap V) : Nat := h.entries.foldr (fun e n => e.priority + 1 + n) 0

theorem not_mem_empty (e : Entry V) : e ∉ (empty : Heap V) := List.not_mem_nil

theorem push_perm {h : Heap V} {e : Entry V} : (h.push e).entries.Perm (e :: h.entries) :=
  e.enter_perm h.entries

@[simp] theorem mem_push {h : Heap V} {e f : Entry V} : f ∈ h.push e ↔ f = e ∨ f ∈ h :=
  Entry.mem_enter

theorem entries_of_pop? {h rest : Heap V} {e : Entry V} (hpop : h.pop? = some (e, rest)) :
    h.entries = e :: rest.entries := by
  obtain ⟨_ | ⟨f, fs⟩, ordered⟩ := h
  · cases hpop
  · cases hpop
    rfl

theorem mem_of_pop? {h rest : Heap V} {e f : Entry V} (hpop : h.pop? = some (e, rest)) :
    f ∈ h ↔ f = e ∨ f ∈ rest := by
  change f ∈ h.entries ↔ _
  rw [entries_of_pop? hpop]
  exact List.mem_cons

theorem not_mem_of_pop?_eq_none {h : Heap V} (hpop : h.pop? = none) (e : Entry V) : e ∉ h := by
  obtain ⟨_ | ⟨f, fs⟩, ordered⟩ := h
  · exact List.not_mem_nil
  · cases hpop

/-- **What is left comes up no earlier.** -/
theorem not_before_of_pop? {h rest : Heap V} {e f : Entry V} (hpop : h.pop? = some (e, rest))
    (hf : f ∈ h) : ¬f.Before e := by
  rcases (mem_of_pop? hpop).1 hf with rfl | hf
  · exact fun hff => hff.asymm hff
  · have hordered := h.ordered
    rw [entries_of_pop? hpop] at hordered
    exact (List.pairwise_cons.1 hordered).1 f hf

theorem weight_push (h : Heap V) (e : Entry V) :
    (h.push e).weight = e.priority + 1 + h.weight := by
  have hswap : ∀ f ∈ (h.push e).entries, ∀ g ∈ (h.push e).entries, ∀ n,
      g.priority + 1 + (f.priority + 1 + n) = f.priority + 1 + (g.priority + 1 + n) :=
    fun _ _ _ _ _ => Nat.add_left_comm ..
  exact push_perm.foldr_eq' hswap 0

theorem weight_of_pop? {h rest : Heap V} {e : Entry V} (hpop : h.pop? = some (e, rest)) :
    h.weight = e.priority + 1 + rest.weight := by
  rw [weight, entries_of_pop? hpop, List.foldr_cons]
  rfl

end Heap

end BinaryCsp
