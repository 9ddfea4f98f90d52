import BinaryCsp.Limit
import BinaryCsp.Random.Generator
import BinaryCsp.Stats

/-!
# What a search owns besides the problem

A `Context` holds the counters, the limit, and the chooser that makes every random choice, so two
runs with equal contexts on equal problems make equal choices.  `memory` is whatever the plug-ins of
a search want to remember between two calls; no part of the library looks at it.
-/

namespace BinaryCsp

open BinaryCsp.Random (Chooser Generator)

/-- Counters, limit, randomness, and the memory of plug-ins. -/
structure Context (σ : Type) where
  stats : Stats
  limit : Limit
  random : Chooser
  memory : σ

namespace Context

variable {σ : Type}

def fresh (random : Chooser) (memory : σ) : Context σ := ⟨Stats.zero, .never, random, memory⟩

/-- A fresh context that draws from the stream of a seed. -/
def seeded (seed : UInt64) (memory : σ) : Context σ :=
  fresh (Generator.seeded seed).toChooser memory

def poll (c : Context σ) : Bool × Context σ := (c.limit.poll.1, { c with limit := c.limit.poll.2 })

def count (c : Context σ) (f : Stats → Stats) : Context σ := { c with stats := f c.stats }

def choose {α : Type} (c : Context σ) (xs : List α) : Option α × Context σ :=
  ((Chooser.choose xs c.random).1, { c with random := (Chooser.choose xs c.random).2 })

end Context

end BinaryCsp
