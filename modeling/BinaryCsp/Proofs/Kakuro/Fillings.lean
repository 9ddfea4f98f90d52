import BinaryCsp.Proofs.Kakuro.Network
import BinaryCsp.Proofs.Solutions

/-!
# Solutions and fillings

A filling gives every empty square a digit, such that the digits of each run are distinct and add
up to its clue.  `Grid.toProblem_exact`: the solutions of the problem of a grid, read back by
`sortedDigits`, are exactly the fillings of the grid, each read from one solution only.

A solution decides the digits of a run twice, by the cells and by the value of the run.  That the
two agree (`Grid.Network.digits_of_run`) is all that goes into the proof; a filling is turned into a
solution by giving each run the digits of its squares (`Grid.valueOf`).
-/

namespace BinaryCsp.Kakuro

/-! ## Ordered lists -/

lemma Before.asymm {p q : Nat × Nat} (h : Before p q) : ¬ Before q p := by
  rintro h'
  rcases h with h | ⟨h₁, h₂⟩ <;> rcases h' with h' | ⟨h₁', h₂'⟩ <;> omega

lemma placeLE_trans {p q r : Nat × Nat} (h : placeLE p q = true) (h' : placeLE q r = true) :
    placeLE p r = true := by
  simp only [placeLE, Bool.or_eq_true, Bool.and_eq_true, decide_eq_true_eq, beq_iff_eq] at h h' ⊢
  omega

lemma placeLE_total (p q : Nat × Nat) : (placeLE p q || placeLE q p) = true := by
  simp only [placeLE, Bool.or_eq_true, Bool.and_eq_true, decide_eq_true_eq, beq_iff_eq]
  omega

/-- A strictly ordered list is determined by its members. -/
lemma eq_of_pairwise_of_mem {α : Type} {R : α → α → Prop} (hasymm : ∀ x y, R x y → ¬ R y x)
    {l l' : List α} (hl : l.Pairwise R) (hl' : l'.Pairwise R) (hmem : ∀ x, x ∈ l ↔ x ∈ l') :
    l = l' := by
  have hne : ∀ {x y : α}, R x y → x ≠ y := by
    rintro x y hxy rfl
    exact hasymm x x hxy hxy
  have hperm : l.Perm l' := (List.perm_ext_iff_of_nodup (hl.imp hne) (hl'.imp hne)).mpr hmem
  exact List.Perm.eq_of_pairwise (fun x y _ _ h h' => absurd h' (hasymm x y h)) hl hl' hperm

/-! ## Reading digits back -/

section Reading

variable {a : Assignment Variable Value}

lemma mem_cellDigits {p : Nat × Nat} {d : Nat} :
    (p, d) ∈ cellDigits a ↔ a.get? (.cell p.1 p.2) = some (.digit d) := by
  rw [PartialMap.get?_eq_some_iff, cellDigits, List.mem_filterMap]
  constructor
  · rintro ⟨⟨v, x⟩, he, hpd⟩
    cases v with
    | cell row col =>
      cases x with
      | digit e =>
        cases hpd
        exact he
      | permutation ds => cases hpd
    | run row col dir => cases hpd
  · intro he
    exact ⟨_, he, rfl⟩

lemma mem_sortedDigits {p : Nat × Nat} {d : Nat} :
    (p, d) ∈ sortedDigits a ↔ a.get? (.cell p.1 p.2) = some (.digit d) := by
  rw [sortedDigits, List.mem_mergeSort, mem_cellDigits]

lemma pairwise_sortedDigits (a : Assignment Variable Value) :
    (sortedDigits a).Pairwise fun e f => Before e.1 f.1 := by
  have hplaces : (cellDigits a).Pairwise fun e f => e.1 ≠ f.1 := by
    rw [cellDigits, List.pairwise_filterMap]
    have hkeys : a.entries.Pairwise fun e f => e.1 ≠ f.1 := List.pairwise_map.mp a.keys_nodup
    refine hkeys.imp ?_
    rintro ⟨v, x⟩ ⟨w, y⟩ hne e he f hf heq
    apply hne
    cases v <;> cases x <;> cases he
    cases w <;> cases y <;> cases hf
    obtain ⟨rfl, rfl⟩ := Prod.mk.inj heq
    rfl
  have hne : (sortedDigits a).Pairwise fun e f => e.1 ≠ f.1 :=
    hplaces.perm (List.mergeSort_perm _ _).symm fun h => h.symm
  have hle : (sortedDigits a).Pairwise fun e f => placeLE e.1 f.1 = true := by
    apply List.pairwise_mergeSort
    · intro e f h hef hfh
      exact placeLE_trans hef hfh
    · intro e f
      exact placeLE_total e.1 f.1
  refine (hle.and hne).imp ?_
  rintro e f ⟨hle, hne⟩
  exact (placeLE_iff.mp hle).resolve_right hne

lemma nodup_sortedDigits (a : Assignment Variable Value) :
    ((sortedDigits a).map Prod.fst).Nodup := by
  rw [List.Nodup, List.pairwise_map]
  exact (pairwise_sortedDigits a).imp Before.ne

lemma find_sortedDigits {p : Nat × Nat} {d : Nat} :
    PartialMap.find p (sortedDigits a) = some d ↔ a.get? (.cell p.1 p.2) = some (.digit d) := by
  rw [PartialMap.find_eq_some_iff (nodup_sortedDigits a), mem_sortedDigits]

end Reading

namespace Grid

variable {g : Grid} {P : Problem Variable Value} {a : Assignment Variable Value}

/-! ## Fillings -/

/-- A digit for every empty square, row by row, such that the digits of each run are distinct and
add up to its clue. -/
structure IsFilling (g : Grid) (f : List ((Nat × Nat) × Nat)) : Prop where
  squares : f.map Prod.fst = g.empties
  digits : ∀ e ∈ f, 1 ≤ e.2 ∧ e.2 ≤ 9
  sums : ∀ c n, g.Demands c → g.IsRun c n →
    ∃ ds, (List.range n).map (fun i => PartialMap.find (c.nth i) f) = ds.map some ∧
      DistinctDigits c.sum ds

/-- The sums of a filling, run by run. -/
lemma sums_iff {f : List ((Nat × Nat) × Nat)} :
    (∀ c n, g.Demands c → g.IsRun c n →
      ∃ ds, (List.range n).map (fun i => PartialMap.find (c.nth i) f) = ds.map some ∧
        DistinctDigits c.sum ds) ↔
    ∀ c ∈ g.clues, ∃ ds, (g.run c).map (fun p => PartialMap.find p f) = ds.map some ∧
      DistinctDigits c.sum ds := by
  constructor
  · intro h c hc
    obtain ⟨ds, hds, hdistinct⟩ := h c (g.span c) (mem_clues.mp hc) (isRun_iff.mpr rfl)
    refine ⟨ds, ?_, hdistinct⟩
    rw [run_eq, List.map_map, ← hds]
    rfl
  · intro h c n hc hn
    obtain ⟨ds, hds, hdistinct⟩ := h c (mem_clues.mpr hc)
    refine ⟨ds, ?_, hdistinct⟩
    rw [isRun_iff.mp hn, ← hds, run_eq, List.map_map]
    rfl

lemma getElem?_of_map_find {f : List ((Nat × Nat) × Nat)} {l : List (Nat × Nat)} {ds : List Nat}
    (h : l.map (fun p => PartialMap.find p f) = ds.map some) {i d : Nat} {p : Nat × Nat}
    (hp : l[i]? = some p) (hd : PartialMap.find p f = some d) : ds[i]? = some d := by
  have hi := congrArg (fun l => l[i]?) h
  simp only [List.getElem?_map, hp, Option.map_some, hd] at hi
  obtain ⟨e, he, heq⟩ := Option.map_eq_some_iff.mp hi.symm
  rw [he, Option.some.inj heq]

lemma find_of_squares {f : List ((Nat × Nat) × Nat)} (hf : f.map Prod.fst = g.empties)
    {p : Nat × Nat} {d : Nat} : PartialMap.find p f = some d ↔ (p, d) ∈ f := by
  apply PartialMap.find_eq_some_iff
  rw [hf]
  exact g.pairwise_empties.imp Before.ne

/-! ## From solutions to fillings -/

section Solutions

variable (hP : g.Network P) (ha : P.IsSolution P.domain a)

include hP

lemma Network.check_run {c : Clue} {i : Nat} {p : Nat × Nat} (h : (g.run c)[i]? = some p)
    (d : Nat) (ds : List Nat) :
    P.check c.toVariable (.permutation ds) (.cell p.1 p.2) (.digit d)
      = decide (ds[i]? = some d) := by
  rw [Problem.check, hP.constraint]
  exact digitMatches_run h d ds

lemma Network.check_cell {c : Clue} {i : Nat} {p : Nat × Nat} (h : (g.run c)[i]? = some p)
    (d : Nat) (ds : List Nat) :
    P.check (.cell p.1 p.2) (.digit d) c.toVariable (.permutation ds)
      = decide (ds[i]? = some d) := by
  rw [Problem.check, hP.constraint]
  exact digitMatches_run h d ds

include ha

lemma Network.digit_of_cell {p : Nat × Nat} (hp : p ∈ g.empties) :
    ∃ d, a.get? (.cell p.1 p.2) = some (.digit d) ∧ 1 ≤ d ∧ d ≤ 9 := by
  obtain ⟨x, hx⟩ := ha.exists_value (hP.cell_mem_vars.mpr hp)
  have hchosen := ha.chosen _ x hx
  rw [hP.domain_cell p hp, List.mem_map] at hchosen
  obtain ⟨d, hd, rfl⟩ := hchosen
  exact ⟨d, hx, mem_digits.mp hd⟩

/-- **The value of a run** consists of the digits of its cells. -/
theorem Network.digits_of_run {c : Clue} (hc : c ∈ g.clues) :
    ∃ ds, a.get? c.toVariable = some (.permutation ds) ∧
      (g.run c).map (fun p => PartialMap.find p (sortedDigits a)) = ds.map some ∧
      DistinctDigits c.sum ds := by
  obtain ⟨x, hx⟩ := ha.exists_value (hP.run_mem_vars hc)
  have hchosen := ha.chosen _ x hx
  rw [hP.domain_run c hc, runDomain, List.mem_map] at hchosen
  obtain ⟨ds, hds, rfl⟩ := hchosen
  obtain ⟨hlen, hdistinct⟩ := mem_digitPermutations.mp hds
  refine ⟨ds, hx, List.ext_getElem? fun i => ?_, hdistinct⟩
  rw [List.getElem?_map, List.getElem?_map]
  cases hp : (g.run c)[i]? with
  | none =>
    have hout : ds[i]? = none := by
      rw [List.getElem?_eq_none_iff] at hp ⊢
      rwa [hlen]
    rw [hout]
    rfl
  | some p =>
    have hmem : p ∈ g.run c := List.mem_of_getElem? hp
    obtain ⟨d, hd, -⟩ := hP.digit_of_cell ha (mem_empties_of_mem_run hmem)
    have hlinked : .cell p.1 p.2 ∈ P.neighbors c.toVariable :=
      (hP.mem_neighbors _ _).mpr (Or.inl ⟨c, hc, p, hmem, rfl, rfl⟩)
    have hcheck := ha.checked _ _ hlinked _ _ hx hd
    rw [hP.check_run hp, decide_eq_true_eq] at hcheck
    rw [hcheck, Option.map_some, Option.map_some, find_sortedDigits.mpr hd]

lemma Network.mem_empties_of_digit {p : Nat × Nat} {d : Nat}
    (hd : a.get? (.cell p.1 p.2) = some (.digit d)) : p ∈ g.empties := by
  have hassigned : .cell p.1 p.2 ∈ a := PartialMap.mem_iff_exists.mpr ⟨_, hd⟩
  exact hP.cell_mem_vars.mp ((ha.declared _).mp hassigned)

/-- **What is read from a solution** is a filling. -/
theorem Network.isFilling_sortedDigits : g.IsFilling (sortedDigits a) := by
  refine ⟨?_, ?_, sums_iff.mpr fun c hc => ?_⟩
  · refine eq_of_pairwise_of_mem (fun _ _ h => h.asymm)
      (List.pairwise_map.mpr (pairwise_sortedDigits a)) g.pairwise_empties fun p => ?_
    rw [List.mem_map]
    constructor
    · rintro ⟨⟨q, d⟩, hq, rfl⟩
      exact hP.mem_empties_of_digit ha (mem_sortedDigits.mp hq)
    · intro hp
      obtain ⟨d, hd, -⟩ := hP.digit_of_cell ha hp
      exact ⟨(p, d), mem_sortedDigits.mpr hd, rfl⟩
  · rintro ⟨p, d⟩ he
    have hd := mem_sortedDigits.mp he
    obtain ⟨d', hd', hbounds⟩ := hP.digit_of_cell ha (hP.mem_empties_of_digit ha hd)
    cases hd.symm.trans hd'
    exact hbounds
  · obtain ⟨ds, -, hds⟩ := hP.digits_of_run ha hc
    exact ⟨ds, hds⟩

/-- **A solution is determined** by the digits of its cells. -/
theorem Network.get?_eq_of_sortedDigits_eq {b : Assignment Variable Value}
    (hb : P.IsSolution P.domain b) (heq : sortedDigits a = sortedDigits b) (v : Variable) :
    a.get? v = b.get? v := by
  by_cases hv : v ∈ P.vars
  · rcases (hP.mem_vars v).mp hv with ⟨p, hp, rfl⟩ | ⟨c, hc, rfl⟩
    · obtain ⟨d, hd, -⟩ := hP.digit_of_cell ha hp
      rw [hd, eq_comm, ← mem_sortedDigits, ← heq, mem_sortedDigits, hd]
    · obtain ⟨ds, hds, hmap, -⟩ := hP.digits_of_run ha hc
      obtain ⟨es, hes, hmap', -⟩ := hP.digits_of_run hb hc
      have hsame : ds = es := by
        apply List.map_injective_iff.mpr fun _ _ => Option.some.inj
        rw [← hmap, heq, hmap']
      rw [hds, hes, hsame]
  · have hnone : ∀ {τ : Assignment Variable Value}, P.IsSolution P.domain τ → τ.get? v = none :=
      fun hτ => PartialMap.get?_eq_none_iff.mpr fun h => hv ((hτ.declared v).mp h)
    rw [hnone ha, hnone hb]

end Solutions

/-! ## From fillings to solutions -/

/-- The values that a filling gives to the variables: its digits to the cells, and to each run the
digits of its squares. -/
def valueOf (g : Grid) (f : List ((Nat × Nat) × Nat)) : Variable → Value
  | .cell row col => .digit ((PartialMap.find (row, col) f).getD 0)
  | .run row col d => .permutation ((g.runAt row col d).filterMap fun p => PartialMap.find p f)

section Fillings

variable {f : List ((Nat × Nat) × Nat)} (hf : g.IsFilling f)

include hf

lemma IsFilling.exists_digit {p : Nat × Nat} (hp : p ∈ g.empties) :
    ∃ d, PartialMap.find p f = some d ∧ (1 ≤ d ∧ d ≤ 9) ∧
      g.valueOf f (.cell p.1 p.2) = .digit d := by
  rw [← hf.squares, List.mem_map] at hp
  obtain ⟨⟨p, d⟩, he, rfl⟩ := hp
  have hd : PartialMap.find p f = some d := (find_of_squares hf.squares).mpr he
  refine ⟨d, hd, hf.digits _ he, ?_⟩
  show Value.digit ((PartialMap.find p f).getD 0) = .digit d
  rw [hd]
  rfl

lemma IsFilling.exists_digits {c : Clue} (hc : c ∈ g.clues) :
    ∃ ds, (g.run c).map (fun p => PartialMap.find p f) = ds.map some ∧
      DistinctDigits c.sum ds ∧ g.valueOf f c.toVariable = .permutation ds := by
  obtain ⟨ds, hds, hdistinct⟩ := sums_iff.mp hf.sums c hc
  refine ⟨ds, hds, hdistinct, ?_⟩
  show Value.permutation ((g.run c).filterMap fun p => PartialMap.find p f) = .permutation ds
  congr 1
  calc (g.run c).filterMap (fun p => PartialMap.find p f)
      = ((g.run c).map fun p => PartialMap.find p f).filterMap id := by
        rw [List.filterMap_map]
        rfl
    _ = ds := by
        rw [hds, List.filterMap_map]
        exact List.filterMap_some

lemma IsFilling.valueOf_mem_domain (hP : g.Network P) {v : Variable} (hv : v ∈ P.vars) :
    g.valueOf f v ∈ P.domain v := by
  rcases (hP.mem_vars v).mp hv with ⟨p, hp, rfl⟩ | ⟨c, hc, rfl⟩
  · obtain ⟨d, -, hbounds, hvalue⟩ := hf.exists_digit hp
    rw [hvalue, hP.domain_cell p hp]
    exact List.mem_map.mpr ⟨d, mem_digits.mpr hbounds, rfl⟩
  · obtain ⟨ds, hds, hdistinct, hvalue⟩ := hf.exists_digits hc
    have hlen : ds.length = (g.run c).length := by
      rw [← List.length_map (f := some), ← hds, List.length_map]
    rw [hvalue, hP.domain_run c hc]
    exact List.mem_map.mpr ⟨ds, mem_digitPermutations.mpr ⟨hlen, hdistinct⟩, rfl⟩

/-- A run goes with each of its cells, in either order. -/
lemma IsFilling.check_valueOf (hP : g.Network P) {c : Clue} (hc : c ∈ g.clues) {p : Nat × Nat}
    (hp : p ∈ g.run c) :
    P.check c.toVariable (g.valueOf f c.toVariable) (.cell p.1 p.2)
        (g.valueOf f (.cell p.1 p.2)) = true ∧
      P.check (.cell p.1 p.2) (g.valueOf f (.cell p.1 p.2)) c.toVariable
        (g.valueOf f c.toVariable) = true := by
  obtain ⟨i, hi⟩ := List.mem_iff_getElem?.mp hp
  obtain ⟨d, hd, -, hcell⟩ := hf.exists_digit (mem_empties_of_mem_run hp)
  obtain ⟨ds, hds, -, hrun⟩ := hf.exists_digits hc
  have hat : ds[i]? = some d := getElem?_of_map_find hds hi hd
  rw [hcell, hrun, hP.check_run hi, hP.check_cell hi]
  exact ⟨decide_eq_true hat, decide_eq_true hat⟩

/-- The values that a filling gives to the variables are a solution. -/
theorem IsFilling.isSolution (hP : g.Network P) :
    P.IsSolution P.domain (.tabulate P.vars P.vars_nodup (g.valueOf f)) := by
  have hget := PartialMap.get?_tabulate P.vars P.vars_nodup (g.valueOf f)
  refine ⟨fun v => PartialMap.mem_tabulate, fun v x hx => ?_, fun v w hw x y hx hy => ?_⟩
  · rw [hget] at hx
    split at hx
    · rename_i hv
      obtain rfl := Option.some.inj hx
      exact hf.valueOf_mem_domain hP hv
    · cases hx
  · rw [hget] at hx hy
    split at hx <;> split at hy <;> cases hx <;> cases hy
    rcases (hP.mem_neighbors v w).mp hw with ⟨c, hc, p, hp, rfl, rfl⟩ | ⟨c, hc, p, hp, rfl, rfl⟩
    · exact (hf.check_valueOf hP hc hp).1
    · exact (hf.check_valueOf hP hc hp).2

/-- Reading that solution back gives the filling. -/
theorem IsFilling.sortedDigits_eq (hP : g.Network P) :
    sortedDigits (.tabulate P.vars P.vars_nodup (g.valueOf f)) = f := by
  have hget := PartialMap.get?_tabulate P.vars P.vars_nodup (g.valueOf f)
  have hplaces := g.pairwise_empties
  rw [← hf.squares, List.pairwise_map] at hplaces
  refine eq_of_pairwise_of_mem (fun _ _ h => h.asymm) (pairwise_sortedDigits _) hplaces ?_
  rintro ⟨p, d⟩
  rw [mem_sortedDigits, hget, ← find_of_squares hf.squares]
  constructor
  · intro h
    split at h
    · rename_i hp
      obtain ⟨d', hd', -, hvalue⟩ := hf.exists_digit (hP.cell_mem_vars.mp hp)
      cases hvalue.symm.trans (Option.some.inj h)
      exact hd'
    · cases h
  · intro hd
    have hp : p ∈ g.empties := by
      rw [← hf.squares]
      exact List.mem_map.mpr ⟨_, (find_of_squares hf.squares).mp hd, rfl⟩
    obtain ⟨d', hd', -, hvalue⟩ := hf.exists_digit hp
    cases hd.symm.trans hd'
    rw [if_pos (hP.cell_mem_vars.mpr hp), hvalue]

end Fillings

/-! ## The encoding -/

/-- A problem says what the grid says: cells and runs are linked as they cross, and the assignments
that take their values from the domains and pass the goal test are the fillings of the grid. -/
structure IsEncodedBy (g : Grid) (P : Problem Variable Value) : Prop where
  /-- The neighbors of a cell are the runs that cover it, -/
  neighbors_cell : ∀ p, g.EmptyAt p → ∀ v, v ∈ P.neighbors (.cell p.1 p.2) ↔
    ∃ c n i, g.Demands c ∧ g.IsRun c n ∧ i < n ∧ c.nth i = p ∧ v = c.toVariable
  /-- at most one for each direction. -/
  one_each_direction : ∀ (p : Nat × Nat) row col row' col' d,
    .run row col d ∈ P.neighbors (.cell p.1 p.2) →
    .run row' col' d ∈ P.neighbors (.cell p.1 p.2) → row = row' ∧ col = col'
  /-- The neighbors of a run are its cells, in order. -/
  neighbors_run : ∀ c n, g.Demands c → g.IsRun c n →
    P.neighbors c.toVariable = (List.range n).map fun i => .cell (c.nth i).1 (c.nth i).2
  fills : ∀ a, P.goalTest a = true ∧ a.Within P.domain → g.IsFilling (sortedDigits a)
  injective : ∀ a b, P.goalTest a = true ∧ a.Within P.domain →
    P.goalTest b = true ∧ b.Within P.domain → sortedDigits a = sortedDigits b →
    ∀ v, a.get? v = b.get? v
  surjective : ∀ f, g.IsFilling f →
    ∃ a, (P.goalTest a = true ∧ a.Within P.domain) ∧ sortedDigits a = f
  /-- A run that is too long, or cannot reach its sum, leaves no solution. -/
  unsolvable : ∀ c n, g.Demands c → g.IsRun c n →
    (9 < n ∨ ¬ ∃ ds, ds.length = n ∧ DistinctDigits c.sum ds) →
    ∀ a, ¬ (P.goalTest a = true ∧ a.Within P.domain)

lemma Network.mem_neighbors_cell (hP : g.Network P) {p : Nat × Nat} {v : Variable} :
    v ∈ P.neighbors (.cell p.1 p.2) ↔ ∃ c ∈ g.clues, p ∈ g.run c ∧ v = c.toVariable := by
  rw [hP.mem_neighbors]
  constructor
  · rintro (⟨c, -, q, -, heq, -⟩ | ⟨c, hc, q, hq, rfl, heq⟩)
    · exact absurd heq.symm (c.toVariable_ne_cell _ _)
    · exact ⟨c, hc, eq_of_cell_eq heq ▸ hq, rfl⟩
  · rintro ⟨c, hc, hp, rfl⟩
    exact Or.inr ⟨c, hc, p, hp, rfl, rfl⟩

/-- **The encoding is exact**: every grid is accepted as a problem, and the problem says what the
grid says. -/
theorem toProblem_exact (g : Grid) : ∃ P, g.toProblem = .ok P ∧ g.IsEncodedBy P := by
  obtain ⟨P, hP, hnet⟩ := g.exists_network
  refine ⟨P, hP, ?_⟩
  constructor
  case neighbors_cell =>
    intro p _ v
    rw [hnet.mem_neighbors_cell]
    constructor
    · rintro ⟨c, hc, hp, rfl⟩
      obtain ⟨i, hi, hplace⟩ := mem_run.mp hp
      exact ⟨c, g.span c, i, mem_clues.mp hc, isRun_iff.mpr rfl, hi, hplace, rfl⟩
    · rintro ⟨c, n, i, hc, hn, hi, hplace, rfl⟩
      rw [isRun_iff.mp hn] at hi
      exact ⟨c, mem_clues.mpr hc, mem_run.mpr ⟨i, hi, hplace⟩, rfl⟩
  case one_each_direction =>
    intro p row col row' col' d hv hw
    obtain ⟨c, hc, hp, hcv⟩ := hnet.mem_neighbors_cell.mp hv
    obtain ⟨c', hc', hp', hcw⟩ := hnet.mem_neighbors_cell.mp hw
    obtain ⟨rfl, rfl, rfl⟩ := Variable.run.inj hcv
    obtain ⟨rfl, rfl, hd⟩ := Variable.run.inj hcw
    rw [eq_of_mem_run hc hc' hd hp hp']
    exact ⟨rfl, rfl⟩
  case neighbors_run =>
    intro c n hc hn
    rw [hnet.neighbors_run c (mem_clues.mpr hc), run_eq, isRun_iff.mp hn, List.map_map]
    rfl
  case fills =>
    intro a ha
    exact hnet.isFilling_sortedDigits (Problem.goalTest_and_within_iff.mp ha)
  case injective =>
    intro a b ha hb heq
    exact hnet.get?_eq_of_sortedDigits_eq (Problem.goalTest_and_within_iff.mp ha)
      (Problem.goalTest_and_within_iff.mp hb) heq
  case surjective =>
    intro f hf
    have hsolution := Problem.goalTest_and_within_iff.mpr (hf.isSolution hnet)
    exact ⟨_, hsolution, hf.sortedDigits_eq hnet⟩
  case unsolvable =>
    intro c n hc hn himpossible a ha
    have hsolution := Problem.goalTest_and_within_iff.mp ha
    obtain ⟨ds, -, hds, hdistinct⟩ := hnet.digits_of_run hsolution (mem_clues.mpr hc)
    have hlen : ds.length = n := by
      rw [isRun_iff.mp hn, ← length_run, ← List.length_map (f := some), ← hds, List.length_map]
    rcases himpossible with hlong | hnone
    · have hle := hdistinct.length_le
      omega
    · exact hnone ⟨ds, hlen, hdistinct⟩

end Grid

end BinaryCsp.Kakuro
