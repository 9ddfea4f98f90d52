/-!
# Sets of characters

A set of characters is a table of ranges of their numbers, both ends included.
-/

namespace BinaryCsp.Text

/-- Whether the number of a character lies between two others. -/
def within (low high : Nat) (c : Char) : Bool := low ≤ c.toNat && c.toNat ≤ high

def inRanges (ranges : Array (Nat × Nat)) (c : Char) : Bool :=
  ranges.any fun r => within r.1 r.2 c

end BinaryCsp.Text
