/-!
# Mappings with finitely many keys

`PartialMap K A` lists its entries in the order in which their keys first came; no key occurs
twice.  Assignments, domain families and neighbor graphs are all such mappings.

The view of a mapping is `get?`.  `get?_insert` and `get?_erase` say what the two updates do to
it, and `mem_iff_isSome` ties membership of a key to it, so later modules never look at the list of
entries.
-/

namespace BinaryCsp

/-- A mapping from finitely many keys, its entries kept in order of first insertion. -/
structure PartialMap (K A : Type) where
  entries : List (K × A)
  keys_nodup : (entries.map Prod.fst).Nodup
  deriving DecidableEq

namespace PartialMap

variable {K A B : Type}

/-! ## Entry lists -/

section Entries

variable [DecidableEq K]

/-- The value listed first for a key. -/
def find (k : K) : List (K × A) → Option A
  | [] => none
  | e :: es => if e.1 = k then some e.2 else find k es

/-- Gives the key a value in its place, or at the end if it is new. -/
def place (k : K) (a : A) : List (K × A) → List (K × A)
  | [] => [(k, a)]
  | e :: es => if e.1 = k then (k, a) :: es else e :: place k a es

theorem find_eq_none_iff {k : K} {es : List (K × A)} :
    find k es = none ↔ k ∉ es.map Prod.fst := by
  induction es with
  | nil => simp [find]
  | cons e es ih =>
    by_cases h : e.1 = k
    · simp [find, h]
    · simp [find, h, ih, Ne.symm h]

theorem find_eq_some_iff {k : K} {a : A} {es : List (K × A)} (h : (es.map Prod.fst).Nodup) :
    find k es = some a ↔ (k, a) ∈ es := by
  induction es with
  | nil => simp [find]
  | cons e es ih =>
    obtain ⟨hn, h⟩ := List.nodup_cons.1 h
    by_cases hk : e.1 = k
    · subst hk
      have : (e.1, a) ∉ es := fun he => hn (List.mem_map.2 ⟨_, he, rfl⟩)
      simp [find, this, Prod.ext_iff, eq_comm]
    · simp [find, hk, ih h, Prod.ext_iff, Ne.symm hk]

theorem find_place {k j : K} {a : A} {es : List (K × A)} :
    find j (place k a es) = if k = j then some a else find j es := by
  induction es with
  | nil => simp [place, find]
  | cons e es ih =>
    by_cases h : e.1 = k
    · subst h
      by_cases hj : e.1 = j <;> simp [place, find, hj]
    · by_cases hj : e.1 = j
      · subst hj
        simp [place, find, h, Ne.symm h]
      · simp [place, find, h, hj, ih]

theorem map_fst_place {k : K} {a : A} {es : List (K × A)} :
    (place k a es).map Prod.fst =
      if k ∈ es.map Prod.fst then es.map Prod.fst else es.map Prod.fst ++ [k] := by
  induction es with
  | nil => simp [place]
  | cons e es ih =>
    by_cases h : e.1 = k
    · simp [place, h]
    · simp only [place, h, if_false, List.map_cons, ih, List.mem_cons, Ne.symm h, false_or]
      split <;> simp

theorem nodup_place {k : K} {a : A} {es : List (K × A)} (h : (es.map Prod.fst).Nodup) :
    ((place k a es).map Prod.fst).Nodup := by
  rw [map_fst_place]
  split
  · exact h
  · rename_i hk
    refine List.nodup_append.2 ⟨h, by simp, ?_⟩
    intro x hx y hy
    simp only [List.mem_singleton] at hy
    subst hy
    exact fun e => hk (e ▸ hx)

theorem place_of_not_mem {k : K} {a : A} {es : List (K × A)} (h : k ∉ es.map Prod.fst) :
    place k a es = es ++ [(k, a)] := by
  induction es with
  | nil => rfl
  | cons e es ih =>
    rw [List.map_cons, List.mem_cons, not_or] at h
    rw [place, if_neg (Ne.symm h.1), ih h.2, List.cons_append]

theorem find_filter_ne {k j : K} {es : List (K × A)} :
    find j (es.filter fun e => !decide (e.1 = k)) = if k = j then none else find j es := by
  induction es with
  | nil => simp [find]
  | cons e es ih =>
    by_cases h : e.1 = k
    · subst h
      by_cases hj : e.1 = j <;> simp_all [find]
    · by_cases hj : e.1 = j
      · subst hj
        simp [find, h, Ne.symm h]
      · simp [h, find, hj, ih]

end Entries

theorem nodup_filter {p : K × A → Bool} {es : List (K × A)} (h : (es.map Prod.fst).Nodup) :
    ((es.filter p).map Prod.fst).Nodup :=
  List.Sublist.nodup (List.Sublist.map _ List.filter_sublist) h

/-! ## The mapping -/

def empty : PartialMap K A := ⟨[], List.nodup_nil⟩

instance : Inhabited (PartialMap K A) := ⟨empty⟩

/-- The keys, in order of first insertion. -/
def keys (m : PartialMap K A) : List K := m.entries.map Prod.fst

def size (m : PartialMap K A) : Nat := m.entries.length

instance : Membership K (PartialMap K A) := ⟨fun m k => k ∈ m.keys⟩

theorem mem_def {m : PartialMap K A} {k : K} : k ∈ m ↔ k ∈ m.keys := Iff.rfl

theorem nodup_keys (m : PartialMap K A) : m.keys.Nodup := m.keys_nodup

@[simp] theorem length_keys (m : PartialMap K A) : m.keys.length = m.size := by
  simp [keys, size]

/-- The mapping that gives each of the listed keys its value under a function. -/
def tabulate (ks : List K) (nodup : ks.Nodup) (f : K → A) : PartialMap K A :=
  ⟨ks.map fun k => (k, f k), by simpa [Function.comp_def] using nodup⟩

@[simp] theorem mem_tabulate {ks : List K} {nodup : ks.Nodup} {f : K → A} {k : K} :
    k ∈ tabulate ks nodup f ↔ k ∈ ks := by
  simp [mem_def, keys, tabulate, Function.comp_def]

section Lookup

variable [DecidableEq K]

instance (m : PartialMap K A) (k : K) : Decidable (k ∈ m) :=
  inferInstanceAs (Decidable (k ∈ m.keys))

/-- The value of a key, if it has one. -/
def get? (m : PartialMap K A) (k : K) : Option A := find k m.entries

/-- Gives a key a value, replacing the one it had. -/
def insert (m : PartialMap K A) (k : K) (a : A) : PartialMap K A :=
  ⟨place k a m.entries, nodup_place m.keys_nodup⟩

def erase (m : PartialMap K A) (k : K) : PartialMap K A :=
  ⟨m.entries.filter fun e => !decide (e.1 = k), nodup_filter m.keys_nodup⟩

/-- The mapping with the given entries, a later entry replacing an earlier one of its key. -/
def ofList (es : List (K × A)) : PartialMap K A :=
  es.foldl (fun m e => m.insert e.1 e.2) empty

@[simp] theorem get?_empty (k : K) : (empty : PartialMap K A).get? k = none := rfl

@[simp] theorem get?_insert (m : PartialMap K A) (k j : K) (a : A) :
    (m.insert k a).get? j = if k = j then some a else m.get? j :=
  find_place

@[simp] theorem get?_erase (m : PartialMap K A) (k j : K) :
    (m.erase k).get? j = if k = j then none else m.get? j :=
  find_filter_ne

theorem get?_eq_none_iff {m : PartialMap K A} {k : K} : m.get? k = none ↔ k ∉ m :=
  find_eq_none_iff

theorem mem_iff_isSome {m : PartialMap K A} {k : K} : k ∈ m ↔ (m.get? k).isSome := by
  rw [← Decidable.not_iff_not, ← get?_eq_none_iff]
  simp

theorem mem_iff_exists {m : PartialMap K A} {k : K} : k ∈ m ↔ ∃ a, m.get? k = some a :=
  mem_iff_isSome.trans Option.isSome_iff_exists

@[simp] theorem mem_insert {m : PartialMap K A} {k j : K} {a : A} :
    j ∈ m.insert k a ↔ k = j ∨ j ∈ m := by
  rw [mem_iff_isSome, mem_iff_isSome, get?_insert]
  by_cases h : k = j <;> simp [h]

@[simp] theorem mem_erase {m : PartialMap K A} {k j : K} :
    j ∈ m.erase k ↔ k ≠ j ∧ j ∈ m := by
  rw [mem_iff_isSome, mem_iff_isSome, get?_erase]
  by_cases h : k = j <;> simp [h]

theorem get?_tabulate (ks : List K) (nodup : ks.Nodup) (f : K → A) (k : K) :
    (tabulate ks nodup f).get? k = if k ∈ ks then some (f k) else none := by
  change find k (ks.map fun j => (j, f j)) = _
  clear nodup
  induction ks with
  | nil => simp [find]
  | cons j ks ih =>
    by_cases h : j = k
    · simp [find, h]
    · simp [find, h, ih, Ne.symm h]

theorem keys_insert (m : PartialMap K A) (k : K) (a : A) :
    (m.insert k a).keys = if k ∈ m then m.keys else m.keys ++ [k] :=
  map_fst_place

/-- A new key comes last. -/
theorem entries_insert {m : PartialMap K A} {k : K} (h : k ∉ m) (a : A) :
    (m.insert k a).entries = m.entries ++ [(k, a)] :=
  place_of_not_mem h

theorem size_insert (m : PartialMap K A) (k : K) (a : A) :
    (m.insert k a).size = if k ∈ m then m.size else m.size + 1 := by
  rw [← length_keys, keys_insert]
  split <;> simp

theorem get?_eq_some_iff {m : PartialMap K A} {k : K} {a : A} :
    m.get? k = some a ↔ (k, a) ∈ m.entries :=
  find_eq_some_iff m.keys_nodup

/-! ## One update after another -/

omit [DecidableEq K] in
theorem ext_entries {m n : PartialMap K A} (h : m.entries = n.entries) : m = n := by
  cases m
  cases n
  cases h
  rfl

/-- Of two values given to one key only the later is left, in the place of the earlier. -/
theorem insert_insert (m : PartialMap K A) (k : K) (a b : A) :
    (m.insert k a).insert k b = m.insert k b := by
  refine ext_entries ?_
  show place k b (place k a m.entries) = place k b m.entries
  induction m.entries with
  | nil => simp [place]
  | cons e es ih => by_cases h : e.1 = k <;> simp [place, h, ih]

theorem erase_eq_self {m : PartialMap K A} {k : K} (h : k ∉ m) : m.erase k = m := by
  refine ext_entries (List.filter_eq_self.2 fun e he => ?_)
  have hne : e.1 ≠ k := fun hk => h (hk ▸ List.mem_map_of_mem he)
  simp [hne]

/-- Giving a new key a value is undone by erasing it. -/
theorem erase_insert {m : PartialMap K A} {k : K} (h : k ∉ m) (a : A) :
    (m.insert k a).erase k = m := by
  refine ext_entries ?_
  show (place k a m.entries).filter (fun e => !decide (e.1 = k)) = m.entries
  have hes : ∀ e ∈ m.entries, e.1 ≠ k := fun e he hk => h (hk ▸ List.mem_map_of_mem he)
  revert hes
  generalize m.entries = es
  intro hes
  induction es with
  | nil => simp [place]
  | cons e es ih =>
    obtain ⟨he, hes⟩ := List.forall_mem_cons.1 hes
    simp [place, he, ih hes]

/-! ## Sums over the entries -/

/-- The sum of a measure over the values of all keys. -/
def sum (f : A → Nat) (m : PartialMap K A) : Nat :=
  m.entries.foldr (fun e n => f e.2 + n) 0

/-- **Replacing a value changes a sum by the difference of the two measures.** -/
theorem sum_insert (f : A → Nat) (m : PartialMap K A) (k : K) (a : A) :
    (m.insert k a).sum f + ((m.get? k).map f).getD 0 = m.sum f + f a := by
  change (place k a m.entries).foldr (fun e n => f e.2 + n) 0 + ((find k m.entries).map f).getD 0
    = m.entries.foldr (fun e n => f e.2 + n) 0 + f a
  generalize m.entries = es
  induction es with
  | nil => simp [place, find]
  | cons e es ih =>
    by_cases h : e.1 = k
    · simp [place, find, h]; omega
    · simp only [place, find, h, if_false, List.foldr_cons]
      omega

theorem size_erase_le (m : PartialMap K A) (k : K) : (m.erase k).size ≤ m.size :=
  List.length_filter_le _ _

theorem size_erase_lt {m : PartialMap K A} {k : K} (h : k ∈ m) : (m.erase k).size < m.size := by
  obtain ⟨e, he, hk⟩ := List.mem_map.1 h
  have hf : ¬ (fun e : K × A => !decide (e.1 = k)) e = true := by simp [hk]
  exact List.length_filter_lt_length_iff_exists.2 ⟨e, he, hf⟩

/-! ## Families of lists

A mapping to lists also reads as a total family: a key without an entry has the empty list. -/

/-- The list of a key, empty if it has none. -/
def listAt (m : PartialMap K (List A)) (k : K) : List A := (m.get? k).getD []

@[simp] theorem listAt_insert (m : PartialMap K (List A)) (k j : K) (l : List A) :
    (m.insert k l).listAt j = if k = j then l else m.listAt j := by
  rw [listAt]
  rw [get?_insert]
  split <;> rfl

/-- The number of items of all lists together. -/
def total (m : PartialMap K (List A)) : Nat := m.sum List.length

theorem total_insert (m : PartialMap K (List A)) (k : K) (l : List A) :
    (m.insert k l).total + (m.listAt k).length = m.total + l.length := by
  have h := sum_insert List.length m k l
  unfold total listAt
  cases hk : m.get? k <;> simp_all

theorem listAt_tabulate (ks : List K) (nodup : ks.Nodup) (f : K → List A) (k : K) :
    (tabulate ks nodup f).listAt k = if k ∈ ks then f k else [] := by
  rw [listAt]
  rw [get?_tabulate]
  split <;> rfl

end Lookup

end PartialMap

end BinaryCsp
