import BinaryCsp.Random.Chooser
import BinaryCsp.Random.KeyStream

/-!
# Choices from a stream of words

A `Generator` is a position in a stream of 32-bit words, and a chooser (`Generator.toChooser`): it
takes no word for an empty list, and one word or more for any other, also for a list of one.

A word `w` points at the item `w * n / 2 ^ 32` of `n`.  Words that would favor some items are
refused and another is drawn, so all items are equally likely (`below_lt`: the index is in range).
On a stream that has nothing else to offer, `attempts` refusals in a row are enough and the next
word is taken as it is.  Nothing that is known of a search depends on this: it is known for every
chooser.
-/

namespace BinaryCsp.Random

/-- A stream of words and the position of the next one. -/
structure Generator where
  word : Nat → UInt32
  position : Nat

namespace Generator

/-- The generator at the start of the stream of a seed. -/
def seeded (seed : UInt64) : Generator := ⟨keyStream seed, 0⟩

def draw (g : Generator) : UInt32 × Generator :=
  (g.word g.position, { g with position := g.position + 1 })

/-- How many words may be refused in a row. -/
def attempts : Nat := 4096

/-- The largest low half that a word's product with `n` may have: one less than the largest
multiple of `n` by a power of two that fits into 32 bits. -/
def zone (n : Nat) : Nat := (n <<< (31 - n.log2)) - 1

/-- An index below `n`, after at most `tries` refused words. -/
def belowWithin (n : Nat) : Nat → Generator → Nat × Generator
  | 0, g => (g.draw.1.toNat * n / UInt32.size, g.draw.2)
  | tries + 1, g =>
    let product := g.draw.1.toNat * n
    if product % UInt32.size ≤ zone n then (product / UInt32.size, g.draw.2)
    else belowWithin n tries g.draw.2

def below (n : Nat) (g : Generator) : Nat × Generator := belowWithin n attempts g

theorem scaled_lt (w : UInt32) {n : Nat} (h : 0 < n) : w.toNat * n / UInt32.size < n :=
  Nat.div_lt_of_lt_mul (Nat.mul_lt_mul_of_pos_right w.toNat_lt h)

theorem belowWithin_lt {n : Nat} (h : 0 < n) (tries : Nat) (g : Generator) :
    (belowWithin n tries g).1 < n := by
  induction tries generalizing g with
  | zero => exact scaled_lt _ h
  | succ tries ih =>
    simp only [belowWithin]
    split
    · exact scaled_lt _ h
    · exact ih _

theorem below_lt {n : Nat} (h : 0 < n) (g : Generator) : (below n g).1 < n :=
  belowWithin_lt h _ g

/-- One item of a list, all equally likely. -/
def choose {α : Type} : List α → Generator → Option α × Generator
  | [], g => (none, g)
  | x :: xs, g =>
    let drawn := below (x :: xs).length g
    ((x :: xs)[drawn.1]?, drawn.2)

/-! ## As a chooser -/

/-- The choices that the words of a stream lead to, from a position on. -/
def toChooser (g : Generator) : Chooser where
  draw position n :=
    let drawn := below n { g with position := position }
    (drawn.1, drawn.2.position)
  draw_lt _ _ h := below_lt h _
  position := g.position

theorem word_belowWithin (n tries : Nat) (g : Generator) :
    (belowWithin n tries g).2.word = g.word := by
  induction tries generalizing g with
  | zero => rfl
  | succ tries ih =>
    simp only [belowWithin]
    split
    · rfl
    · exact ih g.draw.2

/-- The chooser of a generator draws what the generator draws, and goes on where it goes on. -/
theorem choose_toChooser {α : Type} (xs : List α) (g : Generator) :
    Chooser.choose xs g.toChooser = ((choose xs g).1, (choose xs g).2.toChooser) := by
  cases xs with
  | nil => rfl
  | cons x xs =>
    have hword := word_belowWithin (x :: xs).length attempts g
    have hnext : (below (x :: xs).length g).2
        = { g with position := (below (x :: xs).length g).2.position } :=
      congrArg (fun word => (⟨word, (below (x :: xs).length g).2.position⟩ : Generator)) hword
    rw [choose]
    dsimp only
    rw [hnext]
    rfl

end Generator

end BinaryCsp.Random
