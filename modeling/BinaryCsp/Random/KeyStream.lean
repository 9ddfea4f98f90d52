/-!
# An eight-round key stream

A 64-bit seed is stretched to a 256-bit key, and block `n` of the stream is the eight-round
ChaCha permutation of that key at counter `n`, added to its own input.  `keyStream seed i` is the
`i`-th 32-bit word of the stream: a function of the seed and the position, so two equally seeded
streams agree word by word.
-/

namespace BinaryCsp.Random

/-- The sixteen words a block is computed on. -/
abbrev Words := Vector UInt32 16

/-! ## The key -/

/-- One step of the seed stretcher: a linear congruence on 64 bits. -/
def advance (s : UInt64) : UInt64 := s * 6364136223846793005 + 11634580027462260723

def rotateRight (x n : UInt32) : UInt32 := (x >>> n) ||| (x <<< ((32 - n) % 32))

def rotateLeft (x n : UInt32) : UInt32 := (x <<< n) ||| (x >>> ((32 - n) % 32))

/-- The output of a stretcher state: its high bits, folded and rotated by the topmost five. -/
def permuted (s : UInt64) : UInt32 :=
  rotateRight (((s >>> 18) ^^^ s) >>> 27).toUInt32 (s >>> 59).toUInt32

/-- The first `n` words of the key that a stretcher state leads to. -/
def keyWords : Nat → UInt64 → List UInt32
  | 0, _ => []
  | n + 1, s => permuted (advance s) :: keyWords n (advance s)

/-! ## The block -/

/-- The quarter round on four of the sixteen words. -/
def quarterRound (a b c d : Fin 16) (w : Words) : Words :=
  let w := w.set a (w[a] + w[b])
  let w := w.set d (rotateLeft (w[d] ^^^ w[a]) 16)
  let w := w.set c (w[c] + w[d])
  let w := w.set b (rotateLeft (w[b] ^^^ w[c]) 12)
  let w := w.set a (w[a] + w[b])
  let w := w.set d (rotateLeft (w[d] ^^^ w[a]) 8)
  let w := w.set c (w[c] + w[d])
  w.set b (rotateLeft (w[b] ^^^ w[c]) 7)

/-- Four quarter rounds on the columns, then four on the diagonals. -/
def doubleRound (w : Words) : Words :=
  let w := quarterRound 0 4 8 12 w
  let w := quarterRound 1 5 9 13 w
  let w := quarterRound 2 6 10 14 w
  let w := quarterRound 3 7 11 15 w
  let w := quarterRound 0 5 10 15 w
  let w := quarterRound 1 6 11 12 w
  let w := quarterRound 2 7 8 13 w
  quarterRound 3 4 9 14 w

/-- The input of block `n`: four constants, the key, the counter, and a zero nonce. -/
def blockInput (key : List UInt32) (n : Nat) : Words :=
  let constants : List UInt32 := [0x61707865, 0x3320646e, 0x79622d32, 0x6b206574]
  let counter : List UInt32 := [UInt32.ofNat n, UInt32.ofNat (n >>> 32), 0, 0]
  Vector.ofFn fun i => (constants ++ key ++ counter).getD i.val 0

def block (key : List UInt32) (n : Nat) : Words :=
  let input := blockInput key n
  let mixed := doubleRound (doubleRound (doubleRound (doubleRound input)))
  Vector.zipWith (· + ·) mixed input

/-- The word at a position of the stream of a seed. -/
def keyStream (seed : UInt64) : Nat → UInt32 :=
  let key := keyWords 8 seed
  fun i => (block key (i / 16)).get ⟨i % 16, Nat.mod_lt _ (by decide)⟩

end BinaryCsp.Random
