/-!
# Choices at random

A `Chooser` says which item of a list is drawn.  It draws an index for the length of the list, and
by its construction an index in range: so `choose` draws an item of the list, and none only where
there is none (`choose_mem`, `choose_eq_none_iff`).

All that changes as choices are made is a position.  Anything may stand there for any length, so
whatever sequence of choices a run meets with, there is a chooser that makes it: a law about all
choosers is a law about all sources of random numbers.
-/

namespace BinaryCsp.Random

/-- A source of random choices: what is drawn where, and the position of the next draw. -/
structure Chooser where
  /-- The index drawn from so many items at a position, and the position after the draw. -/
  draw : (position items : Nat) → Nat × Nat
  draw_lt : ∀ position {items : Nat}, 0 < items → (draw position items).1 < items
  position : Nat

namespace Chooser

variable {α : Type}

/-- One item of a list.  Nothing is drawn from an empty list. -/
def choose : List α → Chooser → Option α × Chooser
  | [], c => (none, c)
  | x :: xs, c =>
    let drawn := c.draw c.position (x :: xs).length
    ((x :: xs)[drawn.1]?, { c with position := drawn.2 })

theorem choose_mem {xs : List α} {c : Chooser} {x : α} (h : (choose xs c).1 = some x) : x ∈ xs := by
  cases xs with
  | nil => cases h
  | cons y ys => exact List.mem_of_getElem? h

theorem choose_eq_none_iff {xs : List α} {c : Chooser} : (choose xs c).1 = none ↔ xs = [] := by
  cases xs with
  | nil => simp [choose]
  | cons y ys =>
    have hlt : (c.draw c.position (y :: ys).length).1 < (y :: ys).length :=
      c.draw_lt c.position (Nat.succ_pos _)
    simp only [choose, List.getElem?_eq_none_iff, reduceCtorEq, iff_false]
    exact Nat.not_le.mpr hlt

end Chooser

end BinaryCsp.Random
