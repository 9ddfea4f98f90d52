import BinaryCsp.Proofs.Declaration
import BinaryCsp.Proofs.Kakuro.Permutations
import BinaryCsp.Proofs.Kakuro.Runs

/-!
# The problem of a grid

Every grid is accepted as a problem (`Grid.exists_network`), and `Grid.Network` says what that
problem looks like: a cell for each empty square, a run for each clue, and a link wherever a run
crosses a cell.

Whether a linked cell and run go together is decided by the offset of the cell in the run;
`Grid.digitMatches_run` says that this offset is the right one.
-/

namespace BinaryCsp.Kakuro

/-- The place that a variable belongs to. -/
def Variable.place : Variable → Nat × Nat
  | cell row col => (row, col)
  | run row col _ => (row, col)

lemma eq_of_cell_eq {p q : Nat × Nat} (h : Variable.cell p.1 p.2 = .cell q.1 q.2) : p = q := by
  obtain ⟨hrow, hcol⟩ := Variable.cell.inj h
  exact Prod.ext hrow hcol

lemma Clue.toVariable_ne_cell (c : Clue) (row col : Nat) : c.toVariable ≠ .cell row col := nofun

namespace Grid

variable {g : Grid}

/-! ## Variables and domains -/

lemma mem_squareDomains {row col : Nat} {s : Square} {e : Variable × List Value} :
    e ∈ g.squareDomains (row, col, s) ↔
      (s = .empty ∧ e = (.cell row col, digits.map .digit)) ∨
        ∃ c ∈ s.clues row col, e = (c.toVariable, g.runDomain c) := by
  cases s with
  | blocked => simp [squareDomains, Square.clues]
  | empty => simp [squareDomains, Square.clues]
  | clue down right =>
    rw [squareDomains, List.mem_map]
    · simp only [reduceCtorEq, false_and, false_or, eq_comm]
    · intro h
      cases h

lemma mem_domains {e : Variable × List Value} : e ∈ g.domains ↔
    (∃ p ∈ g.empties, e = (.cell p.1 p.2, digits.map .digit)) ∨
      ∃ c ∈ g.clues, e = (c.toVariable, g.runDomain c) := by
  rw [domains, List.mem_flatMap]
  constructor
  · rintro ⟨⟨row, col, s⟩, hp, he⟩
    rcases mem_squareDomains.mp he with ⟨rfl, rfl⟩ | ⟨c, hc, rfl⟩
    · exact Or.inl ⟨(row, col), mem_empties.mpr (mem_places.mp hp), rfl⟩
    · exact Or.inr ⟨c, List.mem_flatMap.mpr ⟨_, hp, hc⟩, rfl⟩
  · rintro (⟨p, hp, rfl⟩ | ⟨c, hc, rfl⟩)
    · refine ⟨(p.1, p.2, .empty), mem_places.mpr (mem_empties.mp hp), ?_⟩
      exact mem_squareDomains.mpr (Or.inl ⟨rfl, rfl⟩)
    · obtain ⟨p, hp, hc⟩ := List.mem_flatMap.mp hc
      exact ⟨p, hp, mem_squareDomains.mpr (Or.inr ⟨c, hc, rfl⟩)⟩

lemma mem_variables {v : Variable} : v ∈ g.domains.map Prod.fst ↔
    (∃ p ∈ g.empties, v = .cell p.1 p.2) ∨ ∃ c ∈ g.clues, v = c.toVariable := by
  rw [List.mem_map]
  constructor
  · rintro ⟨e, he, rfl⟩
    rcases mem_domains.mp he with ⟨p, hp, rfl⟩ | ⟨c, hc, rfl⟩
    · exact Or.inl ⟨p, hp, rfl⟩
    · exact Or.inr ⟨c, hc, rfl⟩
  · rintro (⟨p, hp, rfl⟩ | ⟨c, hc, rfl⟩)
    · exact ⟨_, mem_domains.mpr (Or.inl ⟨p, hp, rfl⟩), rfl⟩
    · exact ⟨_, mem_domains.mpr (Or.inr ⟨c, hc, rfl⟩), rfl⟩

lemma nodup_variables (g : Grid) : (g.domains.map Prod.fst).Nodup := by
  rw [domains, List.map_flatMap]
  refine nodup_flatMap_places Variable.place ?_ ?_
  · rintro ⟨row, col, s⟩ - v hv
    obtain ⟨e, he, rfl⟩ := List.mem_map.mp hv
    rcases mem_squareDomains.mp he with ⟨-, rfl⟩ | ⟨c, hc, rfl⟩
    · rfl
    · obtain ⟨hrow, hcol, -⟩ := Square.mem_clues.mp hc
      exact Prod.ext hrow hcol
  · rintro ⟨row, col, s⟩ -
    cases s with
    | blocked => exact List.nodup_nil
    | empty => exact List.pairwise_singleton _ _
    | clue down right =>
      cases down <;> cases right <;> simp [squareDomains, Square.clues, Clue.toVariable]

/-! ## Links -/

/-- The first is the run of a clue, the second a cell of it. -/
def Crosses (g : Grid) (v w : Variable) : Prop :=
  ∃ c ∈ g.clues, ∃ p ∈ g.run c, v = c.toVariable ∧ w = .cell p.1 p.2

def links (g : Grid) : List (Variable × List Variable) := g.clues.flatMap g.runLinks

lemma mem_runLinks {c : Clue} {e : Variable × List Variable} : e ∈ g.runLinks c ↔
    e = (c.toVariable, (g.run c).map fun p => .cell p.1 p.2) ∨
      ∃ p ∈ g.run c, e = (.cell p.1 p.2, [c.toVariable]) := by
  rw [runLinks, List.mem_cons, List.map_map, List.mem_map]
  constructor
  · rintro (rfl | ⟨p, hp, rfl⟩)
    · exact Or.inl rfl
    · exact Or.inr ⟨p, hp, rfl⟩
  · rintro (rfl | ⟨p, hp, rfl⟩)
    · exact Or.inl rfl
    · exact Or.inr ⟨p, hp, rfl⟩

lemma mem_joined_links {v w : Variable} :
    w ∈ Problem.joined g.links v ↔ g.Crosses v w ∨ g.Crosses w v := by
  rw [Problem.mem_joined]
  constructor
  · rintro ⟨e, he, rfl, hw⟩
    obtain ⟨c, hc, he⟩ := List.mem_flatMap.mp he
    rcases mem_runLinks.mp he with rfl | ⟨p, hp, rfl⟩
    · obtain ⟨p, hp, rfl⟩ := List.mem_map.mp hw
      exact Or.inl ⟨c, hc, p, hp, rfl, rfl⟩
    · exact Or.inr ⟨c, hc, p, hp, List.mem_singleton.mp hw, rfl⟩
  · rintro (⟨c, hc, p, hp, rfl, rfl⟩ | ⟨c, hc, p, hp, rfl, rfl⟩)
    · refine ⟨_, List.mem_flatMap.mpr ⟨c, hc, mem_runLinks.mpr (Or.inl rfl)⟩, rfl, ?_⟩
      exact List.mem_map.mpr ⟨p, hp, rfl⟩
    · refine ⟨_, List.mem_flatMap.mpr ⟨c, hc, mem_runLinks.mpr (Or.inr ⟨p, hp, rfl⟩)⟩, rfl, ?_⟩
      exact List.mem_singleton_self _

/-- Only the links of a run itself list its neighbors. -/
lemma filter_links {c : Clue} (hc : c ∈ g.clues) :
    g.links.filter (fun e => decide (e.1 = c.toVariable)) =
      [(c.toVariable, (g.run c).map fun p => .cell p.1 p.2)] := by
  have hcells : ∀ c' : Clue, ∀ e ∈ ((g.run c').map fun p => Variable.cell p.1 p.2).map
      fun v => (v, [c'.toVariable]), ¬ decide (e.1 = c.toVariable) = true := by
    intro c' e he
    obtain ⟨v, hv, rfl⟩ := List.mem_map.mp he
    obtain ⟨p, -, rfl⟩ := List.mem_map.mp hv
    simp [Clue.toVariable]
  have hothers : ∀ l : List Clue, l ⊆ g.clues → c ∉ l →
      (l.flatMap g.runLinks).filter (fun e => decide (e.1 = c.toVariable)) = [] := by
    intro l hl hnot
    rw [List.filter_eq_nil_iff]
    intro e he
    obtain ⟨c', hc', he⟩ := List.mem_flatMap.mp he
    rw [runLinks, List.mem_cons] at he
    rcases he with rfl | he
    · intro heq
      have hsame : c' = c := eq_of_toVariable_eq (hl hc') hc (of_decide_eq_true heq)
      exact hnot (hsame ▸ hc')
    · exact hcells c' e he
  obtain ⟨l₁, l₂, hsplit⟩ := List.append_of_mem hc
  have hnd := g.nodup_clues
  rw [hsplit, List.nodup_append, List.nodup_cons] at hnd
  obtain ⟨-, ⟨hnot₂, -⟩, hnot₁⟩ := hnd
  have h₁ := hothers l₁ (by rw [hsplit]; exact List.subset_append_left _ _)
    fun h => hnot₁ c h c List.mem_cons_self rfl
  have h₂ := hothers l₂ (by
    rw [hsplit]
    exact fun c' h => List.mem_append_right _ (List.mem_cons_of_mem _ h)) hnot₂
  rw [links, hsplit, List.flatMap_append, List.flatMap_cons, List.filter_append,
    List.filter_append, h₁, h₂, List.nil_append, List.append_nil, runLinks,
    List.filter_cons_of_pos (by simp), List.filter_eq_nil_iff.mpr (hcells c)]

lemma joined_links {c : Clue} (hc : c ∈ g.clues) :
    Problem.joined g.links c.toVariable = (g.run c).map fun p => .cell p.1 p.2 := by
  rw [Problem.joined, filter_links hc, List.flatMap_cons, List.flatMap_nil, List.append_nil]
  apply Problem.eraseDups_of_nodup
  rw [List.Nodup, List.pairwise_map]
  exact (g.nodup_run c).imp fun hne heq => hne (eq_of_cell_eq heq)

/-- The links are between declared variables, and none leads back to where it starts. -/
lemma links_declared : ∀ e ∈ g.links, e.1 ∈ g.domains.map Prod.fst ∧
    ∀ w ∈ e.2, w ≠ e.1 ∧ w ∈ g.domains.map Prod.fst := by
  have hcell : ∀ c : Clue, ∀ p ∈ g.run c, .cell p.1 p.2 ∈ g.domains.map Prod.fst :=
    fun c p hp => mem_variables.mpr (Or.inl ⟨p, mem_empties_of_mem_run hp, rfl⟩)
  have hrun : ∀ c ∈ g.clues, c.toVariable ∈ g.domains.map Prod.fst :=
    fun c hc => mem_variables.mpr (Or.inr ⟨c, hc, rfl⟩)
  intro e he
  obtain ⟨c, hc, he⟩ := List.mem_flatMap.mp he
  rcases mem_runLinks.mp he with rfl | ⟨p, hp, rfl⟩
  · refine ⟨hrun c hc, fun w hw => ?_⟩
    obtain ⟨p, hp, rfl⟩ := List.mem_map.mp hw
    exact ⟨(c.toVariable_ne_cell _ _).symm, hcell c p hp⟩
  · refine ⟨hcell c p hp, fun w hw => ?_⟩
    obtain rfl := List.mem_singleton.mp hw
    exact ⟨c.toVariable_ne_cell _ _, hrun c hc⟩

/-! ## The problem -/

/-- The problem has a cell for each empty square, a run for each clue, and a link wherever a run
crosses a cell. -/
structure Network (g : Grid) (P : Problem Variable Value) : Prop where
  mem_vars : ∀ v, v ∈ P.vars ↔
    (∃ p ∈ g.empties, v = .cell p.1 p.2) ∨ ∃ c ∈ g.clues, v = c.toVariable
  domain_cell : ∀ p ∈ g.empties, P.domain (.cell p.1 p.2) = digits.map .digit
  domain_run : ∀ c ∈ g.clues, P.domain c.toVariable = g.runDomain c
  mem_neighbors : ∀ v w, w ∈ P.neighbors v ↔ g.Crosses v w ∨ g.Crosses w v
  neighbors_run : ∀ c ∈ g.clues,
    P.neighbors c.toVariable = (g.run c).map fun p => .cell p.1 p.2
  constraint : P.constraint = crossing

lemma Network.cell_mem_vars {P : Problem Variable Value} (hP : g.Network P) {p : Nat × Nat} :
    .cell p.1 p.2 ∈ P.vars ↔ p ∈ g.empties := by
  rw [hP.mem_vars]
  constructor
  · rintro (⟨q, hq, heq⟩ | ⟨c, -, heq⟩)
    · exact eq_of_cell_eq heq ▸ hq
    · exact absurd heq.symm (c.toVariable_ne_cell _ _)
  · intro hp
    exact Or.inl ⟨p, hp, rfl⟩

lemma Network.run_mem_vars {P : Problem Variable Value} (hP : g.Network P) {c : Clue}
    (hc : c ∈ g.clues) : c.toVariable ∈ P.vars :=
  (hP.mem_vars _).mpr (Or.inr ⟨c, hc, rfl⟩)

/-- **Every grid is accepted.** -/
theorem exists_network (g : Grid) : ∃ P, g.toProblem = .ok P ∧ g.Network P := by
  have hdomains : ∀ v, v ∈ PartialMap.ofList g.domains ↔ v ∈ g.domains.map Prod.fst := by
    intro v
    rw [PartialMap.mem_def, PartialMap.keys_ofList g.nodup_variables]
  have hsymm : ∀ v w, w ∈ Problem.joined g.links v → v ∈ Problem.joined g.links w :=
    fun v w hw => mem_joined_links.mpr (mem_joined_links.mp hw).symm
  obtain ⟨P, hbuild, hvars, hbaseline, hconstraint, hneighbors⟩ :=
    Problem.build_eq_ok crossing (Problem.declared_fst g.domains) g.nodup_variables hdomains
      links_declared hsymm
  have hdomain : ∀ v xs, (v, xs) ∈ g.domains → P.domain v = xs := by
    intro v xs he
    rw [Problem.domain, hbaseline, PartialMap.listAt,
      (PartialMap.get?_ofList g.nodup_variables).mpr he]
    rfl
  refine ⟨P, hbuild, ?_, ?_, ?_, ?_, ?_, hconstraint⟩
  · intro v
    rw [hvars, mem_variables]
  · exact fun p hp => hdomain _ _ (mem_domains.mpr (Or.inl ⟨p, hp, rfl⟩))
  · exact fun c hc => hdomain _ _ (mem_domains.mpr (Or.inr ⟨c, hc, rfl⟩))
  · intro v w
    rw [hneighbors, mem_joined_links]
  · intro c hc
    rw [hneighbors, joined_links hc]

/-! ## The constraint -/

/-- **A cell and a run go together** if the run has the digit of the cell where it meets the cell.
-/
theorem digitMatches_run {c : Clue} {i : Nat} {p : Nat × Nat} (h : (g.run c)[i]? = some p)
    (d : Nat) (ds : List Nat) :
    digitMatches (.cell p.1 p.2) d c.toVariable ds = decide (ds[i]? = some d) := by
  obtain ⟨-, rfl⟩ := getElem?_run.mp h
  obtain ⟨row, col, dir, n⟩ := c
  cases dir with
  | down =>
    have hoffset : row + 1 + i - (row + 1) = i := by omega
    simp [digitMatches, Clue.nth, Clue.toVariable, hoffset]
  | right =>
    have hoffset : col + 1 + i - (col + 1) = i := by omega
    simp [digitMatches, Clue.nth, Clue.toVariable, hoffset]

end Grid

end BinaryCsp.Kakuro
