import BinaryCsp.Proofs.Solutions
import BinaryCsp.Search.MinConflicts

/-!
# What min-conflicts does to an assignment

`settles` and `moves` say what the two parts of the search can do.  Settling a variable gives it a
value of its declared domain with the fewest conflicts (`mem_leastBy`), or nothing if there is no
value.  A move rests if there is no conflict, or settles a variable that has one; on a complete
assignment from the declared domains (`Problem.IsComplete`) such a variable has a value, so it
never happens that a move finds none.

`greedy_cases` and `climb_cases` are what follows for the two loops of the search: the first ends
with a complete assignment unless a domain is empty, and the second keeps it complete.
`World.Counted` goes along, and says that nothing has changed in the world but some counters, the
generator and the limit.
-/

namespace BinaryCsp

open BinaryCsp.Random (Chooser)

variable {V T σ : Type}

/-! ## Drawing one of the least items -/

/-- **The least items** of a list are those with no item below them. -/
theorem mem_leastBy {α : Type} {key : α → Nat} {l : List α} {x : α} :
    x ∈ leastBy key l ↔ x ∈ l ∧ ∀ y ∈ l, key x ≤ key y := by
  rw [leastBy]
  simp only [List.map_map]
  split
  · rename_i hmin
    rw [List.min?_eq_none_iff, List.map_eq_nil_iff] at hmin
    simp [hmin]
  · rename_i m hmin
    obtain ⟨hm, hle⟩ := List.min?_eq_some_iff.mp hmin
    obtain ⟨y, hy, rfl⟩ := List.mem_map.mp hm
    have hleast : ∀ z ∈ l, key y ≤ key z := fun z hz => hle _ (List.mem_map.mpr ⟨z, hz, rfl⟩)
    simp only [List.mem_map, List.mem_filter, Function.comp_apply, beq_iff_eq]
    constructor
    · rintro ⟨-, ⟨⟨z, hz, rfl⟩, hkey⟩, rfl⟩
      have hkey : key z = key y := hkey
      exact ⟨hz, fun u hu => hkey ▸ hleast u hu⟩
    · rintro ⟨hx, hall⟩
      exact ⟨_, ⟨⟨x, hx, rfl⟩, Nat.le_antisymm (hall y hy) (hleast x hx)⟩, rfl⟩

namespace Context

/-- Drawing from a list changes the chooser only, and draws nothing from the empty list only. -/
lemma choose_cases {α : Type} (c : Context σ) (xs : List α) :
    (xs = [] ∧ c.choose xs = (none, c)) ∨
      ∃ x ∈ xs, ∃ g, c.choose xs = (some x, { c with random := g }) := by
  rcases hdrawn : Chooser.choose xs c.random with ⟨_ | x, g⟩
  · have hnil : xs = [] := Chooser.choose_eq_none_iff.mp (congrArg Prod.fst hdrawn)
    subst hnil
    exact Or.inl ⟨rfl, rfl⟩
  · refine Or.inr ⟨x, Chooser.choose_mem (congrArg Prod.fst hdrawn), g, ?_⟩
    rw [choose, hdrawn]

lemma chooseLeast_cases {α : Type} (c : Context σ) (key : α → Nat) (l : List α) :
    (l = [] ∧ c.chooseLeast key l = (none, c)) ∨
      ∃ x ∈ l, (∀ y ∈ l, key x ≤ key y) ∧
        ∃ g, c.chooseLeast key l = (some x, { c with random := g }) := by
  rcases c.choose_cases (leastBy key l) with ⟨hnil, hnone⟩ | ⟨x, hx, g, hsome⟩
  · exact Or.inl ⟨leastBy_eq_nil_iff.mp hnil, hnone⟩
  · obtain ⟨hmem, hleast⟩ := mem_leastBy.mp hx
    exact Or.inr ⟨x, hmem, hleast, g, hsome⟩

end Context

/-! ## What the search counts -/

/-- Since a world, values were given so many times and so many steps were made, and nothing else
has happened to the problem and to the statistics. -/
structure World.Counted (w w' : World V T σ) (given steps : Nat) : Prop where
  current : w'.state.current = w.state.current
  assigns : w'.state.assigns = w.state.assigns + given
  stats : w'.context.stats = { w.context.stats with
    minConflictsSteps := w.context.stats.minConflictsSteps + steps }

lemma World.Counted.refl (w : World V T σ) : w.Counted w 0 0 := ⟨rfl, rfl, rfl⟩

lemma World.Counted.trans {w w' w'' : World V T σ} {given given' steps steps' : Nat}
    (h : w.Counted w' given steps) (h' : w'.Counted w'' given' steps') :
    w.Counted w'' (given + given') (steps + steps') where
  current := h'.current.trans h.current
  assigns := by rw [h'.assigns, h.assigns, Nat.add_assoc]
  stats := by rw [h'.stats, h.stats, Nat.add_assoc]

variable [DecidableEq V] {P : Problem V T}

/-! ## Complete assignments -/

/-- Every declared variable, and no other, has a value, and that is one of its declared domain. -/
structure Problem.IsComplete (P : Problem V T) (a : Assignment V T) : Prop where
  declared : ∀ v, v ∈ a ↔ v ∈ P.vars
  within : a.Within P.domain

namespace Problem

lemma mem_conflicted {a : Assignment V T} {v : V} :
    v ∈ P.conflicted a ↔ v ∈ P.vars ∧ ∃ x, a.get? v = some x ∧ P.conflicts a v x ≠ 0 := by
  rw [conflicted, List.mem_filter, isConflicted]
  refine and_congr_right fun _ => ?_
  cases a.get? v <;> simp

lemma IsComplete.insert {a : Assignment V T} (h : P.IsComplete a) {v : V} {x : T}
    (hv : v ∈ P.vars) (hx : x ∈ P.domain v) : P.IsComplete (a.insert v x) where
  declared u := by
    rw [PartialMap.mem_insert, h.declared]
    exact ⟨fun hu => hu.elim (fun heq => heq ▸ hv) id, Or.inr⟩
  within := h.within.insert hx

/-- **No conflict means solved**: a complete assignment of which no variable is conflicted meets
every constraint, whichever of two neighbors is asked first. -/
theorem IsComplete.isSolution {a : Assignment V T} (h : P.IsComplete a)
    (hrest : P.conflicted a = []) : P.IsSolution P.domain a := by
  refine ⟨h.declared, h.within, fun v w hw x y hx hy => ?_⟩
  have hv : v ∈ P.vars := (h.declared v).mp (PartialMap.mem_iff_exists.mpr ⟨x, hx⟩)
  have hzero : P.conflicts a v x = 0 := by
    by_contra hne
    have hmem : v ∈ P.conflicted a := mem_conflicted.mpr ⟨hv, x, hx, hne⟩
    rw [hrest] at hmem
    cases hmem
  exact conflicts_eq_zero_iff.mp hzero w hw y hy

end Problem

namespace MinConflicts

/-! ## Settling one variable -/

/-- What settling a variable leaves behind. -/
inductive Settles (P : Problem V T) (v : V) (a : Assignment V T) (w : World V T σ) :
    Option (Assignment V T) × World V T σ → Prop where
  | idle (empty : P.domain v = []) : Settles P v a w (none, w)
  | settled {x : T} (mem : x ∈ P.domain v)
      (least : ∀ y ∈ P.domain v, P.conflicts a v x ≤ P.conflicts a v y) (g : Chooser) :
      Settles P v a w
        (some (a.insert v x), ⟨w.state.countAssign, { w.context with random := g }⟩)

/-- **Settling a variable** gives it a value with the fewest conflicts, unless it has none. -/
theorem settles (P : Problem V T) (v : V) (a : Assignment V T) (w : World V T σ) :
    Settles P v a w (settle P v a w) := by
  rw [settle]
  rcases w.context.chooseLeast_cases (P.clashes v (P.assignedNeighbors a v)) (P.domain v) with
    ⟨hnil, hnone⟩ | ⟨x, hx, hleast, g, hsome⟩
  · rw [hnone]
    exact .idle hnil
  · rw [hsome]
    exact .settled hx hleast g

/-! ## The greedy assignment -/

/-- **The first loop** stops at an empty domain, or gives each of the variables a value of its
domain. -/
theorem greedy_cases (P : Problem V T) (vs : List V) (a : Assignment V T) (w : World V T σ) :
    (∃ w', greedy P vs a w = (none, w') ∧ (∃ v ∈ vs, P.domain v = []) ∧
        ∃ given, w.Counted w' given 0) ∨
      ∃ b w', greedy P vs a w = (some b, w') ∧ (∀ v ∈ vs, P.domain v ≠ []) ∧
        (∀ v, v ∈ b ↔ v ∈ vs ∨ v ∈ a) ∧ (a.Within P.domain → b.Within P.domain) ∧
        w.Counted w' vs.length 0 := by
  induction vs generalizing a w with
  | nil => exact Or.inr ⟨a, w, rfl, nofun, by simp, id, .refl w⟩
  | cons v vs ih =>
    have hsettles := settles P v a w
    rw [greedy]
    generalize settle P v a w = r at hsettles ⊢
    cases hsettles with
    | idle empty => exact Or.inl ⟨w, rfl, ⟨v, List.mem_cons_self, empty⟩, 0, .refl w⟩
    | @settled x mem least g =>
      have hone : w.Counted ⟨w.state.countAssign, { w.context with random := g }⟩ 1 0 :=
        ⟨rfl, rfl, rfl⟩
      rcases ih (a.insert v x) ⟨w.state.countAssign, { w.context with random := g }⟩ with
        ⟨w', heq, ⟨u, hu, hempty⟩, given, hcounted⟩ | ⟨b, w', heq, hne, hmem, hwithin, hcounted⟩
      · exact Or.inl ⟨w', heq, ⟨u, List.mem_cons_of_mem _ hu, hempty⟩, _, hone.trans hcounted⟩
      · refine Or.inr ⟨b, w', heq, ?_, fun u => ?_, fun hwithin' => hwithin ?_, ?_⟩
        · exact List.forall_mem_cons.mpr ⟨List.ne_nil_of_mem mem, hne⟩
        · rw [hmem u, PartialMap.mem_insert, List.mem_cons, eq_comm (a := v), or_left_comm,
            or_assoc]
        · exact hwithin'.insert mem
        · rw [List.length_cons, Nat.add_comm vs.length]
          exact hone.trans hcounted

/-- If the first loop does not stop, its assignment is complete. -/
lemma isComplete_of_greedy {a : Assignment V T} {w w' : World V T σ}
    (built : greedy P P.vars .empty w = (some a, w')) : P.IsComplete a := by
  rcases greedy_cases P P.vars .empty w with ⟨w₁, heq, -⟩ | ⟨b, w₁, heq, -, hmem, hwithin, -⟩
  · cases heq.symm.trans built
  · cases heq.symm.trans built
    exact ⟨fun v => (hmem v).trans (or_iff_left List.not_mem_nil), hwithin nofun⟩

/-! ## Moves -/

/-- What a move leaves behind. -/
inductive Moves (P : Problem V T) (a : Assignment V T) (w : World V T σ) :
    Option (Assignment V T) × World V T σ → Prop where
  | rests (rest : P.conflicted a = []) : Moves P a w (none, w)
  | moves {v : V} {x : T} (conflicted : v ∈ P.conflicted a) (mem : x ∈ P.domain v)
      (least : ∀ y ∈ P.domain v, P.conflicts a v x ≤ P.conflicts a v y) (g : Chooser) :
      Moves P a w (some (a.insert v x),
        countStep ⟨w.state.countAssign, { w.context with random := g }⟩)

/-- **A move** from a complete assignment rests if no variable is conflicted, and gives one that is
a value with the fewest conflicts. -/
theorem moves {a : Assignment V T} (h : P.IsComplete a) (w : World V T σ) :
    Moves P a w (move P a w) := by
  rw [move]
  rcases w.context.choose_cases (P.conflicted a) with ⟨hnil, hnone⟩ | ⟨v, hv, g, hsome⟩
  · rw [hnone]
    exact .rests hnil
  · rw [hsome]
    dsimp only
    have hsettles := settles P v a ⟨w.state, { w.context with random := g }⟩
    generalize settle P v a ⟨w.state, { w.context with random := g }⟩ = r at hsettles ⊢
    cases hsettles with
    | idle empty =>
      -- the value that the variable has is one of its domain
      obtain ⟨-, x, hx, -⟩ := Problem.mem_conflicted.mp hv
      have hmem := h.within v x hx
      rw [empty] at hmem
      cases hmem
    | settled mem least g' => exact .moves hv mem least g'

/-! ## The climb -/

/-- **The second loop** starts from a complete assignment and ends without a proof, or with a
complete assignment of which no variable is conflicted.  Each of its steps gives one value. -/
theorem climb_cases (steps : Nat) {a : Assignment V T} (h : P.IsComplete a) (w : World V T σ) :
    ∃ outcome w' moved, climb P steps a w = (outcome, w') ∧ moved ≤ steps ∧
      w.Counted w' moved moved ∧ (outcome = .budgetExhausted ∨
        ∃ b, outcome = .solved b ∧ P.IsComplete b ∧ P.conflicted b = []) := by
  induction steps generalizing a w with
  | zero => exact ⟨.budgetExhausted, w, 0, rfl, Nat.le_refl 0, .refl w, Or.inl rfl⟩
  | succ steps ih =>
    rw [climb]
    rcases hpoll : w.context.poll with ⟨stop, c⟩
    obtain rfl : w.context.poll.2 = c := congrArg Prod.snd hpoll
    have hpolled : w.Counted ⟨w.state, w.context.poll.2⟩ 0 0 := ⟨rfl, rfl, rfl⟩
    cases stop with
    | true => exact ⟨.budgetExhausted, _, 0, rfl, Nat.zero_le _, hpolled, Or.inl rfl⟩
    | false =>
      have hmoves := moves h (⟨w.state, w.context.poll.2⟩ : World V T σ)
      dsimp only
      generalize move P a ⟨w.state, w.context.poll.2⟩ = r at hmoves ⊢
      cases hmoves with
      | rests rest =>
        exact ⟨.solved a, _, 0, rfl, Nat.zero_le _, hpolled, Or.inr ⟨a, rfl, h, rest⟩⟩
      | @moves v x conflicted mem least g =>
        have hmoved : w.Counted (countStep ⟨w.state.countAssign,
          { w.context.poll.2 with random := g }⟩) 1 1 := ⟨rfl, rfl, rfl⟩
        obtain ⟨outcome, w', moved, heq, hle, hcounted, hend⟩ :=
          ih (h.insert (Problem.mem_conflicted.mp conflicted).1 mem) (countStep
            ⟨w.state.countAssign, { w.context.poll.2 with random := g }⟩)
        exact ⟨outcome, w', 1 + moved, heq, by omega, hmoved.trans hcounted, hend⟩

end MinConflicts

end BinaryCsp
