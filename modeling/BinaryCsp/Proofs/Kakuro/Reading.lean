import BinaryCsp.Proofs.Kakuro.Runs
import BinaryCsp.Proofs.Kakuro.Tokens
import Mathlib.Data.List.Forall2

/-!
# What is accepted as a grid

`Grid.read` goes through a text line by line and stops at the first fault.  Seen from its result it
is one relation: the grid that is read has a row for each significant line, and a square for each
word of it (`Grid.read_eq_ok_iff`).  How the faults are ordered and which line they name plays no
part in that.

A grid that is read is well formed (`Grid.wellFormed_of_read`): it is a rectangle with at least one
square, every clue demands something, and has an empty square ahead wherever it does.
-/

namespace BinaryCsp.Kakuro

/-! ## Well-formed grids -/

/-- A clue demands at least one sum, and none that can not be written. -/
def Square.WellFormed : Square → Prop
  | .clue down right =>
    (down ≠ none ∨ right ≠ none) ∧ (∀ n ∈ down, n ≤ largestSum) ∧ ∀ n ∈ right, n ≤ largestSum
  | _ => True

structure Grid.WellFormed (g : Grid) : Prop where
  rows_ne_nil : g.rows ≠ []
  breadth_pos : 0 < g.breadth
  /-- All rows are equally long. -/
  rectangular : ∀ row ∈ g.rows, row.length = g.breadth
  squares : ∀ row ∈ g.rows, ∀ s ∈ row, s.WellFormed
  /-- Where a clue demands a sum, the next square is empty. -/
  reaches : ∀ c, g.Demands c → g.EmptyAt (c.nth 0)

/-! ## Squares -/

lemma IsSide.le_largestSum {cs : List Char} {side : Option Nat} (h : IsSide cs side) :
    ∀ n ∈ side, n ≤ largestSum := by
  rintro n rfl
  cases h with
  | numeral h =>
    obtain ⟨_, -, -, -, -, hlt⟩ := h
    exact le_largestSum_iff.mpr hlt

/-- What is read as a square is well formed. -/
lemma wellFormed_of_readSquare {w : List Char} {s : Square} (h : readSquare w = .ok s) :
    s.WellFormed := by
  cases readSquare_eq_ok_iff.mp h with
  | blocked => trivial
  | empty => trivial
  | clue hdown hright _ hsome => exact ⟨hsome, hdown.le_largestSum, hright.le_largestSum⟩

/-! ## Rows -/

/-- Of two lists that go together every entry of the second has a partner. -/
lemma exists_of_mem_right {α β : Type} {R : α → β → Prop} {l : List α} {u : List β}
    (h : List.Forall₂ R l u) {b : β} (hb : b ∈ u) : ∃ a ∈ l, R a b := by
  induction h with
  | nil => cases hb
  | @cons a c l u hac _ ih =>
    rcases List.mem_cons.mp hb with rfl | hb
    · exact ⟨a, List.mem_cons_self, hac⟩
    · obtain ⟨a', ha', hR⟩ := ih hb
      exact ⟨a', List.mem_cons_of_mem _ ha', hR⟩

/-- A row is what its words are read as. -/
def Reads (ws : List (List Char)) (row : List Square) : Prop :=
  List.Forall₂ (fun w s => readSquare w = .ok s) ws row

lemma readSquares_eq_ok_iff {ws : List (List Char)} {row : List Square} :
    readSquares ws = .ok row ↔ Reads ws row := by
  induction ws generalizing row with
  | nil => rw [readSquares, Reads, List.forall₂_nil_left_iff, Except.ok.injEq, eq_comm]
  | cons w ws ih =>
    rw [readSquares, Reads, List.forall₂_cons_left_iff]
    split
    · rename_i f hf
      simp [hf]
    · rename_i s hs
      split
      · rename_i f hf
        constructor
        · rintro ⟨⟩
        · rintro ⟨b, row', hb, hrow, rfl⟩
          cases hf.symm.trans (ih.mpr hrow)
      · rename_i row' hrow
        constructor
        · rintro ⟨⟩
          exact ⟨s, row', hs, ih.mp hrow, rfl⟩
        · rintro ⟨s', row'', hs', hrow', rfl⟩
          cases hs.symm.trans hs'
          cases hrow.symm.trans (ih.mpr hrow')
          rfl

lemma readRow_eq_ok_iff {length : Option Nat} {ws : List (List Char)} {row : List Square} :
    readRow length ws = .ok row ↔ Reads ws row ∧ ∀ n ∈ length, row.length = n := by
  rw [readRow, ← readSquares_eq_ok_iff]
  cases readSquares ws with
  | error f => simp
  | ok row' =>
    cases length with
    | none => simp
    | some n =>
      by_cases hn : row'.length = n
      · simp only [if_pos hn, Except.ok.injEq, Option.mem_some_iff, forall_eq']
        constructor
        · rintro rfl
          exact ⟨rfl, hn⟩
        · exact And.left
      · simp only [if_neg hn, reduceCtorEq, Except.ok.injEq, Option.mem_some_iff, forall_eq',
          false_iff, not_and]
        rintro rfl
        exact hn

section Rows

variable {length : Option Nat} {ls : List (Nat × List (List Char))}

/-- Rows that have been read are all of one length, each read from its line. -/
lemma reads_of_readRows {rows : List (Nat × List Square)} (h : readRows length ls = .ok rows) :
    List.Forall₂ (fun l row => Reads l.2 row) ls (rows.map Prod.snd) ∧
      ∃ m, (∀ n ∈ length, n = m) ∧ ∀ row ∈ rows.map Prod.snd, row.length = m := by
  induction ls generalizing length rows with
  | nil =>
    cases h
    exact ⟨.nil, length.getD 0, by rintro n rfl; rfl, nofun⟩
  | cons l ls ih =>
    obtain ⟨line, ws⟩ := l
    rw [readRows] at h
    split at h
    · cases h
    · rename_i row hrow
      split at h
      · cases h
      · rename_i rows' hrows
        cases h
        obtain ⟨hreads, hlength⟩ := readRow_eq_ok_iff.mp hrow
        obtain ⟨hrest, m, hm, hall⟩ := ih hrows
        have hrow : row.length = m := by
          cases length with
          | none => exact hm _ rfl
          | some n => exact (hlength n rfl).trans (hm n rfl)
        refine ⟨.cons hreads hrest, m, ?_, ?_⟩
        · rintro n rfl
          exact hm n rfl
        · exact List.forall_mem_cons.mpr ⟨hrow, hall⟩

/-- Lines that can be read as rows of one length are read as these. -/
lemma exists_readRows {grid : List (List Square)} {m : Nat}
    (h : List.Forall₂ (fun l row => Reads l.2 row) ls grid) (hm : ∀ n ∈ length, n = m)
    (hall : ∀ row ∈ grid, row.length = m) :
    ∃ rows, readRows length ls = .ok rows ∧ rows.map Prod.snd = grid := by
  induction h generalizing length with
  | nil => exact ⟨[], rfl, rfl⟩
  | @cons l row ls grid hreads _ ih =>
    obtain ⟨hlength, hall⟩ := List.forall_mem_cons.mp hall
    have hrow : readRow length l.2 = .ok row :=
      readRow_eq_ok_iff.mpr ⟨hreads, fun n hn => hlength.trans (hm n hn).symm⟩
    have hnext : ∀ n ∈ some (length.getD row.length), n = m := by
      rintro n hn
      cases length with
      | none => exact (Option.some.inj hn).symm.trans hlength
      | some k => exact (Option.some.inj hn).symm.trans (hm k rfl)
    obtain ⟨rows, hrows, rfl⟩ := ih hnext hall
    exact ⟨(l.1, row) :: rows, by simp only [readRows, hrow, hrows], rfl⟩

end Rows

/-! ## Grids -/

namespace Grid

/-- A run is empty if the first square ahead of its clue is not. -/
lemma isEmpty_run_iff {g : Grid} {c : Clue} :
    (g.run c).isEmpty = true ↔ ¬ g.EmptyAt (c.nth 0) := by
  rw [List.isEmpty_iff, ← List.length_eq_zero_iff, length_run, ← not_iff_not, not_not,
    ← ne_eq, ← Nat.pos_iff_ne_zero, lt_span]
  refine ⟨fun h => h 0 (Nat.le_refl 0), ?_⟩
  rintro h j hj
  rwa [Nat.le_zero.mp hj]

lemma idleClue?_eq_none_iff {g : Grid} :
    g.idleClue? = none ↔ ∀ c, g.Demands c → g.EmptyAt (c.nth 0) := by
  rw [idleClue?, List.find?_eq_none]
  refine forall_congr' fun c => imp_congr mem_clues ?_
  rw [isEmpty_run_iff, not_not]

lemma breadth_eq {g : Grid} (hne : g.rows ≠ []) {m : Nat} (h : ∀ row ∈ g.rows, row.length = m) :
    g.breadth = m := by
  obtain ⟨row, rows, hrows⟩ := List.exists_cons_of_ne_nil hne
  rw [hrows] at h
  rw [breadth, hrows]
  exact h row List.mem_cons_self

/-- The words of the significant lines. -/
def wording (text : String) : List (List (List Char)) := (significantLines text).map Prod.snd

lemma ne_nil_of_mem_wording {text : String} {ws : List (List Char)} (h : ws ∈ wording text) :
    ws ≠ [] := by
  obtain ⟨l, hl, rfl⟩ := List.mem_map.mp h
  have hsignificant := (List.mem_filter.mp hl).2
  rintro hnil
  rw [hnil] at hsignificant
  cases hsignificant

/-- **A text is read as a grid** exactly if its significant lines are read as the rows of the grid,
there is one, all are equally long, and no clue points at anything but an empty square. -/
theorem read_eq_ok_iff {text : String} {g : Grid} :
    Grid.read text = .ok g ↔
      List.Forall₂ Reads (wording text) g.rows ∧ g.rows ≠ [] ∧
        (∀ row ∈ g.rows, row.length = g.breadth) ∧ ∀ c, g.Demands c → g.EmptyAt (c.nth 0) := by
  rw [wording, List.forall₂_map_left_iff, ← idleClue?_eq_none_iff]
  constructor
  · intro h
    rw [Grid.read] at h
    split at h
    · cases h
    · cases h
    · rename_i rows hne hrows
      obtain ⟨hreads, m, -, hall⟩ := reads_of_readRows hrows
      dsimp only at h
      split at h
      · rename_i hidle
        cases h
        have hgrid : rows.map Prod.snd ≠ [] := fun hnil => hne (List.map_eq_nil_iff.mp hnil)
        have hbreadth : breadth ⟨rows.map Prod.snd⟩ = m := breadth_eq hgrid hall
        exact ⟨hreads, hgrid, fun row hrow => (hall row hrow).trans hbreadth.symm, hidle⟩
      · cases h
  · rintro ⟨hreads, hne, hall, hidle⟩
    obtain ⟨grid⟩ := g
    have hnone : ∀ n ∈ (none : Option Nat), n = breadth ⟨grid⟩ := nofun
    obtain ⟨rows, hrows, rfl⟩ := exists_readRows hreads hnone hall
    rw [Grid.read, hrows]
    cases rows with
    | nil => exact absurd rfl hne
    | cons row rows =>
      dsimp only
      rw [hidle]

/-! ## What is read is well formed -/

/-- **A grid that has been read is well formed.** -/
theorem wellFormed_of_read {text : String} {g : Grid} (h : Grid.read text = .ok g) :
    g.WellFormed := by
  obtain ⟨hreads, hne, hall, hreaches⟩ := read_eq_ok_iff.mp h
  refine ⟨hne, ?_, hall, ?_, hreaches⟩
  · obtain ⟨row, hrow⟩ := List.exists_mem_of_ne_nil _ hne
    obtain ⟨ws, hws, hreads⟩ := exists_of_mem_right hreads hrow
    rw [← hall row hrow, ← hreads.length_eq]
    exact List.length_pos_iff.mpr (ne_nil_of_mem_wording hws)
  · intro row hrow s hs
    obtain ⟨ws, -, hreads⟩ := exists_of_mem_right hreads hrow
    obtain ⟨w, -, hw⟩ := exists_of_mem_right hreads hs
    exact wellFormed_of_readSquare hw

end Grid

end BinaryCsp.Kakuro
