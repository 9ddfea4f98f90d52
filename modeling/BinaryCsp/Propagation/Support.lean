/-!
# Looking for support

A value has *support* in a list of values if it goes with one of them.  This file looks for support
and counts every evaluation of the predicate.  It knows nothing of variables: `check x y` is any
predicate on two kinds of values.

* `probe` tests a list up to the first hit.
* `sift` tests many values one after the other and tells those with support from those without.
  What they are tested against may depend on what has been removed so far.
* `Partition.of` tests the values of one side against those of the other, and learns about both:
  a value that has just given support for the first time is known to have support itself.
-/

namespace BinaryCsp.Support

variable {α β : Type}

/-! ## One value -/

/-- What a test of a list up to the first hit has found. -/
structure Probe (α : Type) where
  tested : Nat
  /-- The item that passed, and the list without it. -/
  hit : Option (α × List α)

/-- Tests the items of a list in order, up to the first one that passes. -/
def probe (p : α → Bool) (l : List α) : Probe α :=
  let i := l.findIdx p
  match l[i]? with
  | some y => ⟨i + 1, some (y, l.eraseIdx i)⟩
  | none => ⟨i, none⟩

theorem tested_probe_le (p : α → Bool) (l : List α) : (probe p l).tested ≤ l.length := by
  unfold probe
  have h := l.findIdx_le_length (p := p)
  cases hl : l[l.findIdx p]? with
  | none => simpa [hl] using h
  | some y =>
    have := (List.getElem?_eq_some_iff.1 hl).1
    simp only [hl]
    omega

theorem hit_probe_eq_none_iff {p : α → Bool} {l : List α} :
    (probe p l).hit = none ↔ ∀ x ∈ l, ¬ p x := by
  unfold probe
  cases hl : l[l.findIdx p]? with
  | none =>
    have : l.length ≤ l.findIdx p := List.getElem?_eq_none_iff.1 hl
    simpa [hl] using List.findIdx_eq_length.1 (Nat.le_antisymm List.findIdx_le_length this)
  | some y =>
    obtain ⟨hlt, rfl⟩ := List.getElem?_eq_some_iff.1 hl
    simp only [hl, reduceCtorEq, false_iff]
    exact fun h => h _ (List.getElem_mem hlt) (List.findIdx_getElem (w := hlt))

/-! ## Many values -/

/-- What a sifting has found so far. -/
structure Sifted (α : Type) where
  kept : Array α
  removed : Array α
  checks : Nat

def Sifted.start : Sifted α := ⟨#[], #[], 0⟩

def Sifted.step (check : α → β → Bool) (targets : Array α → List β) (s : Sifted α) (x : α) :
    Sifted α :=
  let found := probe (check x) (targets s.removed)
  match found.hit with
  | some _ => { s with kept := s.kept.push x, checks := s.checks + found.tested }
  | none => { s with removed := s.removed.push x, checks := s.checks + found.tested }

/-- Tests values in order and tells those with support among the targets from those without. -/
def sift (check : α → β → Bool) (targets : Array α → List β) (xs : List α) : Sifted α :=
  xs.foldl (Sifted.step check targets) Sifted.start

/-! ## Both sides at once -/

/-- What testing one side against the other has found so far. -/
structure Partition (α β : Type) where
  supported : Array α
  unsupported : Array α
  /-- The values of the other side that have not yet given support, in their order. -/
  unproven : List β
  /-- The values of the other side that have given support, in the order in which they did. -/
  proven : List β
  checks : Nat

namespace Partition

def start (ys : List β) : Partition α β := ⟨#[], #[], ys, [], 0⟩

/-- Tests one more value of this side: first against the unproven values of the other, where a hit
proves both sides, then against the proven ones. -/
def step (check : α → β → Bool) (p : Partition α β) (x : α) : Partition α β :=
  let double := probe (check x) p.unproven
  match double.hit with
  | some (y, rest) =>
    { p with
      supported := p.supported.push x
      unproven := rest
      proven := p.proven ++ [y]
      checks := p.checks + double.tested }
  | none =>
    let single := probe (check x) p.proven
    match single.hit with
    | some _ =>
      { p with
        supported := p.supported.push x
        checks := p.checks + double.tested + single.tested }
    | none =>
      { p with
        unsupported := p.unsupported.push x
        checks := p.checks + double.tested + single.tested }

/-- Tests the values of one side, in order, against those of the other. -/
def of (check : α → β → Bool) (xs : List α) (ys : List β) : Partition α β :=
  xs.foldl (step check) (start ys)

end Partition

/-! ## Removing values -/

section Removing

variable [DecidableEq α]

/-- The list without the given values; of equal items the first goes. -/
def eraseAll (l gone : List α) : List α := gone.foldl List.erase l

/-- Looks at one more item: it is passed over if it is the next one to go. -/
def strikeStep (s : Array α × List α) (x : α) : Array α × List α :=
  match s.2 with
  | [] => (s.1.push x, [])
  | y :: ys => if x = y then (s.1, ys) else (s.1.push x, s.2)

/-- The list without the given values, which must come in the order of the list: one pass that
takes out each of them where it meets it. -/
def strike (l gone : List α) : List α := (l.foldl strikeStep (#[], gone)).1.toList

/-- What is left of the other side when values without support go.  A value that has given support
may stand there again without any, and then the first of the equal items goes. -/
def Partition.without {α β : Type} [DecidableEq β] (known : Partition α β) (ys gone : List β) :
    List β :=
  if gone.any fun y => decide (y ∈ known.proven) then eraseAll ys gone else strike ys gone

end Removing

end BinaryCsp.Support
