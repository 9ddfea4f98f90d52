import BinaryCsp.Context

/-!
# Least items, ties at random
-/

namespace BinaryCsp

/-- The items of a list whose key is least, in their order. -/
def leastBy {α : Type} (key : α → Nat) (l : List α) : List α :=
  let keyed := l.map fun x => (key x, x)
  match (keyed.map Prod.fst).min? with
  | none => []
  | some m => (keyed.filter fun e => e.1 == m).map Prod.snd

theorem leastBy_eq_nil_iff {α : Type} {key : α → Nat} {l : List α} :
    leastBy key l = [] ↔ l = [] := by
  rw [leastBy]
  simp only [List.map_map]
  split
  · rename_i h
    simpa using h
  · rename_i m h
    have hm : m ∈ l.map (Prod.fst ∘ fun x => (key x, x)) := List.min?_mem h
    obtain ⟨x, hx, rfl⟩ := List.mem_map.1 hm
    constructor
    · intro e
      have : x ∈ ((l.map fun x => (key x, x)).filter fun e => e.1 == key x).map Prod.snd := by
        simp [hx]
      have he : ((l.map fun x => (key x, x)).filter fun e => e.1 == key x).map Prod.snd = [] := e
      rw [he] at this
      cases this
    · rintro rfl
      cases hx

/-- One of the items whose key is least, drawn by the chooser of the context. -/
def Context.chooseLeast {σ α : Type} (c : Context σ) (key : α → Nat) (l : List α) :
    Option α × Context σ :=
  c.choose (leastBy key l)

end BinaryCsp
