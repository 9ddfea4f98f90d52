import BinaryCsp.Kakuro.Encoding
import Mathlib.Tactic.Common

/-!
# Squares, clues and runs

The lists that a grid is read into, seen as sets: `Grid.mem_places`, `Grid.mem_clues` and
`Grid.mem_run` come down to `Grid.square?`.  The places stand in ascending order
(`Grid.pairwise_places`), so nothing that is listed place by place occurs twice.

A run ends before the next square that is not empty (`Grid.isRun_iff`), hence two clues of one
direction never share a square (`Grid.eq_of_mem_run`).
-/

namespace BinaryCsp.Kakuro

/-! ## Places -/

/-- One place stands strictly before another, row by row. -/
def Before (p q : Nat × Nat) : Prop := p.1 < q.1 ∨ p.1 = q.1 ∧ p.2 < q.2

lemma Before.ne {p q : Nat × Nat} (h : Before p q) : p ≠ q := by
  rintro rfl
  rcases h with h | ⟨-, h⟩
  · exact Nat.lt_irrefl _ h
  · exact Nat.lt_irrefl _ h

lemma placeLE_iff {p q : Nat × Nat} : placeLE p q = true ↔ Before p q ∨ p = q := by
  obtain ⟨a, b⟩ := p
  obtain ⟨c, d⟩ := q
  simp only [placeLE, Before, Prod.mk.injEq, Bool.or_eq_true, Bool.and_eq_true, decide_eq_true_eq,
    beq_iff_eq]
  omega

/-- The place of an entry of `Grid.places`. -/
def placeOf (p : Nat × Nat × Square) : Nat × Nat := (p.1, p.2.1)

lemma pairwise_zipIdx {α : Type} (l : List α) : l.zipIdx.Pairwise fun a b => a.2 < b.2 := by
  have h : (l.zipIdx.map Prod.snd).Pairwise (· < ·) := by
    rw [List.zipIdx_map_snd]
    exact List.pairwise_lt_range' 1
  exact List.pairwise_map.mp h

namespace Grid

variable {g : Grid}

lemma square?_eq_some_iff {row col : Nat} {s : Square} :
    g.square? row col = some s ↔ ∃ r, g.rows[row]? = some r ∧ r[col]? = some s := by
  rw [square?, Option.bind_eq_some_iff]

lemma mem_places {p : Nat × Nat × Square} : p ∈ g.places ↔ g.square? p.1 p.2.1 = some p.2.2 := by
  obtain ⟨row, col, s⟩ := p
  rw [square?_eq_some_iff, places, List.mem_flatMap]
  constructor
  · rintro ⟨⟨r, i⟩, hr, hp⟩
    obtain ⟨⟨s', j⟩, hs, heq⟩ := List.mem_map.mp hp
    cases heq
    exact ⟨r, List.mem_zipIdx_iff_getElem?.mp hr, List.mem_zipIdx_iff_getElem?.mp hs⟩
  · rintro ⟨r, hr, hs⟩
    refine ⟨(r, row), List.mem_zipIdx_iff_getElem?.mpr hr, ?_⟩
    exact List.mem_map.mpr ⟨(s, col), List.mem_zipIdx_iff_getElem?.mpr hs, rfl⟩

lemma pairwise_places (g : Grid) : g.places.Pairwise fun p q => Before (placeOf p) (placeOf q) := by
  rw [places, List.pairwise_flatMap]
  constructor
  · rintro ⟨r, i⟩ -
    rw [List.pairwise_map]
    exact (pairwise_zipIdx r).imp fun h => Or.inr ⟨rfl, h⟩
  · refine (pairwise_zipIdx g.rows).imp fun h => ?_
    intro p hp q hq
    obtain ⟨s, -, rfl⟩ := List.mem_map.mp hp
    obtain ⟨s', -, rfl⟩ := List.mem_map.mp hq
    exact Or.inl h

/-- What is listed place by place, and tells its place, is listed once. -/
lemma nodup_flatMap_places {β : Type} {f : Nat × Nat × Square → List β} (home : β → Nat × Nat)
    (hhome : ∀ p ∈ g.places, ∀ b ∈ f p, home b = placeOf p) (hnd : ∀ p ∈ g.places, (f p).Nodup) :
    (g.places.flatMap f).Nodup := by
  rw [List.Nodup, List.pairwise_flatMap]
  refine ⟨hnd, g.pairwise_places.imp_of_mem ?_⟩
  intro p q hp hq hbefore b hb c hc heq
  apply hbefore.ne
  rw [← hhome p hp b hb, ← hhome q hq c hc, heq]

/-- An empty square lies at a place. -/
def EmptyAt (g : Grid) (p : Nat × Nat) : Prop := g.square? p.1 p.2 = some .empty

/-- The places of the empty squares, row by row. -/
def empties (g : Grid) : List (Nat × Nat) :=
  (g.places.filter fun p => decide (p.2.2 = .empty)).map placeOf

lemma mem_empties {p : Nat × Nat} : p ∈ g.empties ↔ g.EmptyAt p := by
  simp only [EmptyAt, empties, List.mem_map, List.mem_filter, mem_places, decide_eq_true_eq]
  constructor
  · rintro ⟨⟨row, col, s⟩, ⟨hs, rfl⟩, rfl⟩
    exact hs
  · intro h
    exact ⟨(p.1, p.2, .empty), ⟨h, rfl⟩, rfl⟩

lemma pairwise_empties (g : Grid) : g.empties.Pairwise Before := by
  rw [empties, List.pairwise_map]
  exact g.pairwise_places.sublist List.filter_sublist

end Grid

/-! ## Clues -/

/-- The sum that a square demands in a direction. -/
def Square.sum? : Square → Direction → Option Nat
  | .clue down _, .down => down
  | .clue _ right, .right => right
  | _, _ => none

lemma Square.mem_clues {s : Square} {row col : Nat} {c : Clue} :
    c ∈ s.clues row col ↔ c.row = row ∧ c.col = col ∧ s.sum? c.direction = some c.sum := by
  obtain ⟨r, k, d, n⟩ := c
  cases s with
  | blocked => simp [clues, sum?]
  | empty => simp [clues, sum?]
  | clue down right =>
    simp only [clues, List.mem_append, Option.mem_toList, Option.map_eq_some_iff, Clue.mk.injEq]
    cases d with
    | down =>
      simp only [sum?, reduceCtorEq, false_and, and_false, exists_false, or_false, true_and]
      constructor
      · rintro ⟨n, hn, rfl, rfl, rfl⟩
        exact ⟨rfl, rfl, hn⟩
      · rintro ⟨rfl, rfl, hn⟩
        exact ⟨n, hn, rfl, rfl, rfl⟩
    | right =>
      simp only [sum?, reduceCtorEq, false_and, and_false, exists_false, false_or, true_and]
      constructor
      · rintro ⟨n, hn, rfl, rfl, rfl⟩
        exact ⟨rfl, rfl, hn⟩
      · rintro ⟨rfl, rfl, hn⟩
        exact ⟨n, hn, rfl, rfl, rfl⟩

namespace Grid

variable {g : Grid}

/-- The grid has this clue: its square demands the sum in its direction. -/
def Demands (g : Grid) (c : Clue) : Prop :=
  ∃ s, g.square? c.row c.col = some s ∧ s.sum? c.direction = some c.sum

lemma mem_clues {c : Clue} : c ∈ g.clues ↔ g.Demands c := by
  simp only [clues, List.mem_flatMap, Square.mem_clues, mem_places]
  constructor
  · rintro ⟨⟨row, col, s⟩, hs, rfl, rfl, hsum⟩
    exact ⟨s, hs, hsum⟩
  · rintro ⟨s, hs, hsum⟩
    exact ⟨(c.row, c.col, s), hs, rfl, rfl, hsum⟩

lemma not_empty_of_mem_clues {c : Clue} (h : c ∈ g.clues) :
    g.square? c.row c.col ≠ some .empty := by
  obtain ⟨s, hs, hsum⟩ := mem_clues.mp h
  rw [hs]
  rintro heq
  cases heq
  cases hd : c.direction <;> rw [hd] at hsum <;> cases hsum

lemma eq_of_toVariable_eq {c c' : Clue} (h : c ∈ g.clues) (h' : c' ∈ g.clues)
    (heq : c.toVariable = c'.toVariable) : c = c' := by
  obtain ⟨row, col, d, n⟩ := c
  obtain ⟨row', col', d', n'⟩ := c'
  cases heq
  obtain ⟨s, hs, hn⟩ := mem_clues.mp h
  obtain ⟨s', hs', hn'⟩ := mem_clues.mp h'
  cases hs.symm.trans hs'
  cases hn.symm.trans hn'
  rfl

lemma nodup_clues (g : Grid) : g.clues.Nodup := by
  rw [clues]
  refine nodup_flatMap_places (fun c => (c.row, c.col)) ?_ ?_
  · intro p _ c hc
    obtain ⟨hrow, hcol, -⟩ := Square.mem_clues.mp hc
    exact Prod.ext hrow hcol
  · rintro ⟨row, col, s⟩ -
    cases s with
    | blocked => exact List.nodup_nil
    | empty => exact List.nodup_nil
    | clue down right => cases down <;> cases right <;> simp [Square.clues]

end Grid

/-! ## Runs -/

/-- The `i`-th place ahead of a clue. -/
def Clue.nth (c : Clue) (i : Nat) : Nat × Nat :=
  match c.direction with
  | .down => (c.row + 1 + i, c.col)
  | .right => (c.row, c.col + 1 + i)

lemma Clue.nth_injective {c : Clue} {i j : Nat} (h : c.nth i = c.nth j) : i = j := by
  obtain ⟨row, col, d, n⟩ := c
  cases d with
  | down =>
    have hrow : row + 1 + i = row + 1 + j := congrArg Prod.fst h
    omega
  | right =>
    have hcol : col + 1 + i = col + 1 + j := congrArg Prod.snd h
    omega

lemma lt_length_takeWhile {α : Type} {l : List α} {p : α → Bool} {i : Nat} :
    i < (l.takeWhile p).length ↔ ∀ j ≤ i, ∃ x, l[j]? = some x ∧ p x = true := by
  rw [List.takeWhile_eq_take_findIdx_not, List.length_take_of_le List.findIdx_le_length,
    List.lt_findIdx_iff]
  constructor
  · rintro ⟨hi, h⟩ j hj
    refine ⟨l[j], List.getElem?_eq_getElem _, ?_⟩
    simpa using h j hj
  · intro h
    obtain ⟨x, hx, -⟩ := h i (Nat.le_refl i)
    refine ⟨(List.getElem?_eq_some_iff.mp hx).1, fun j hj => ?_⟩
    obtain ⟨y, hy, hp⟩ := h j hj
    rw [(List.getElem?_eq_some_iff.mp hy).2, hp]
    rfl

namespace Grid

variable {g : Grid} {c c' : Clue}

/-- The run of a clue is `n` squares long: so many empty squares lie ahead of it, and no more. -/
def IsRun (g : Grid) (c : Clue) (n : Nat) : Prop :=
  (∀ i < n, g.EmptyAt (c.nth i)) ∧ ¬ g.EmptyAt (c.nth n)

def span (g : Grid) (c : Clue) : Nat := g.runLength c.row c.col c.direction

lemma getElem?_ahead {i : Nat} :
    (g.ahead c.row c.col c.direction)[i]? = some (some .empty) ↔ g.EmptyAt (c.nth i) := by
  obtain ⟨row, col, d, n⟩ := c
  rw [EmptyAt, square?_eq_some_iff]
  cases d with
  | down =>
    rw [ahead, List.getElem?_map, List.getElem?_drop, Option.map_eq_some_iff]
    rfl
  | right =>
    rw [ahead, List.getElem?_map, List.getElem?_drop, Option.map_eq_some_iff]
    cases hrow : g.rows[row]? with
    | none => simp [Clue.nth, hrow]
    | some r => simp [Clue.nth, hrow]

lemma lt_span {i : Nat} : i < g.span c ↔ ∀ j ≤ i, g.EmptyAt (c.nth j) := by
  simp only [span, runLength, lt_length_takeWhile, decide_eq_true_eq, ← getElem?_ahead]
  constructor
  · intro h j hj
    obtain ⟨s, hs, rfl⟩ := h j hj
    exact hs
  · intro h j hj
    exact ⟨_, h j hj, rfl⟩

/-- **A run ends before the next square that is not empty.** -/
theorem isRun_iff {n : Nat} : g.IsRun c n ↔ n = g.span c := by
  constructor
  · rintro ⟨hempty, hend⟩
    apply Nat.le_antisymm
    · by_contra hlt
      have hall : ∀ j ≤ g.span c, g.EmptyAt (c.nth j) := fun j hj => hempty j (by omega)
      exact Nat.lt_irrefl _ (lt_span.mpr hall)
    · by_contra hlt
      exact hend (lt_span.mp (Nat.lt_of_not_le hlt) n (Nat.le_refl n))
  · rintro rfl
    refine ⟨fun i hi => lt_span.mp hi i (Nat.le_refl i), fun hend => ?_⟩
    apply Nat.lt_irrefl (g.span c)
    rw [lt_span]
    intro j hj
    rcases Nat.lt_or_eq_of_le hj with hj | rfl
    · exact lt_span.mp hj j (Nat.le_refl j)
    · exact hend

lemma run_eq (g : Grid) (c : Clue) : g.run c = (List.range (g.span c)).map c.nth := by
  obtain ⟨row, col, d, n⟩ := c
  cases d <;> rfl

@[simp] lemma length_run (g : Grid) (c : Clue) : (g.run c).length = g.span c := by
  rw [run_eq, List.length_map, List.length_range]

lemma getElem?_run {i : Nat} {p : Nat × Nat} :
    (g.run c)[i]? = some p ↔ i < g.span c ∧ c.nth i = p := by
  rw [run_eq, List.getElem?_map, Option.map_eq_some_iff]
  constructor
  · rintro ⟨j, hj, hp⟩
    obtain ⟨hlt, rfl⟩ := List.getElem?_eq_some_iff.mp hj
    rw [List.length_range] at hlt
    rw [List.getElem_range] at hp
    exact ⟨hlt, hp⟩
  · rintro ⟨hi, hp⟩
    exact ⟨i, List.getElem?_range hi, hp⟩

lemma mem_run {p : Nat × Nat} : p ∈ g.run c ↔ ∃ i < g.span c, c.nth i = p := by
  simp only [List.mem_iff_getElem?, getElem?_run]

lemma nodup_run (g : Grid) (c : Clue) : (g.run c).Nodup := by
  rw [run_eq, List.Nodup, List.pairwise_map]
  exact List.nodup_range.imp fun hne heq => hne (Clue.nth_injective heq)

lemma mem_empties_of_mem_run {p : Nat × Nat} (h : p ∈ g.run c) : p ∈ g.empties := by
  obtain ⟨i, hi, rfl⟩ := mem_run.mp h
  exact mem_empties.mpr (lt_span.mp hi i (Nat.le_refl i))

/-- Of two clues of one direction that reach a common square, neither stands behind the other, for
the nearer one would cut the run of the other short. -/
lemma le_of_nth_eq (h' : c' ∈ g.clues) {i i' : Nat} (hi : i < g.span c)
    (hd : c.direction = c'.direction) (heq : c.nth i = c'.nth i') : i ≤ i' := by
  by_contra hlt
  -- The nearer clue stands on this place of the longer run.
  have hplace : c.nth (i - i' - 1) = (c'.row, c'.col) := by
    rw [Clue.nth, Clue.nth, ← hd] at heq
    rw [Clue.nth]
    cases hdir : c.direction with
    | down =>
      rw [hdir] at heq
      obtain ⟨hrow, hcol⟩ := Prod.mk.inj heq
      exact Prod.ext (show c.row + 1 + (i - i' - 1) = c'.row by omega) hcol
    | right =>
      rw [hdir] at heq
      obtain ⟨hrow, hcol⟩ := Prod.mk.inj heq
      exact Prod.ext hrow (show c.col + 1 + (i - i' - 1) = c'.col by omega)
  have hempty := lt_span.mp hi (i - i' - 1) (by omega)
  rw [hplace] at hempty
  exact not_empty_of_mem_clues h' hempty

/-- **Two clues of one direction never share a square.** -/
theorem eq_of_mem_run (h : c ∈ g.clues) (h' : c' ∈ g.clues) (hd : c.direction = c'.direction)
    {p : Nat × Nat} (hp : p ∈ g.run c) (hp' : p ∈ g.run c') : c = c' := by
  obtain ⟨i, hi, hip⟩ := mem_run.mp hp
  obtain ⟨i', hi', rfl⟩ := mem_run.mp hp'
  have hii' : i = i' :=
    Nat.le_antisymm (le_of_nth_eq h' hi hd hip) (le_of_nth_eq h hi' hd.symm hip.symm)
  apply eq_of_toVariable_eq h h'
  rw [Clue.nth, Clue.nth, ← hd, ← hii'] at hip
  rw [Clue.toVariable, Clue.toVariable, ← hd]
  cases hdir : c.direction with
  | down =>
    rw [hdir] at hip
    obtain ⟨hrow, hcol⟩ := Prod.mk.inj hip
    rw [hcol, show c.row = c'.row by omega]
  | right =>
    rw [hdir] at hip
    obtain ⟨hrow, hcol⟩ := Prod.mk.inj hip
    rw [hrow, show c.col = c'.col by omega]

end Grid

end BinaryCsp.Kakuro
