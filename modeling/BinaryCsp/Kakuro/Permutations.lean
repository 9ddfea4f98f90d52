/-!
# Sequences of distinct digits with a given sum

`digitPermutations len sum` lists every sequence of `len` distinct digits from 1 to 9 that add up
to `sum`, in lexicographic order.

Whoever asks for the list (`digitPermutations?`) has room for one sequence set aside first, one byte
for each digit.  No allocation is larger than `capacity`, so a length beyond that is refused
(`reserve`), also where there is nothing to list.  Whether the machine has as much memory is not
asked here.
-/

namespace BinaryCsp.Kakuro

/-! ## Room for a sequence -/

/-- Why no room is set aside. -/
inductive AllocationFault where
  /-- More is asked for than any allocation may hold. -/
  | capacityOverflow
  deriving DecidableEq

def AllocationFault.message : AllocationFault → String
  | capacityOverflow => "capacity overflow"

/-- The largest allocation, in bytes: its size is a signed 64-bit number. -/
def capacity : Nat := 9223372036854775807

/-- Sets aside room for so many bytes. -/
def reserve (bytes : Nat) : Except AllocationFault Unit :=
  if bytes ≤ capacity then .ok () else .error .capacityOverflow

/-! ## The sequences -/

/-- The digits from 1 to 9, in order. -/
def digits : List Nat := [1, 2, 3, 4, 5, 6, 7, 8, 9]

/-- The sequences of `len` distinct digits, none of them among `used`, that add up to `sum`. -/
def permutationsAvoiding : (len sum : Nat) → (used : List Nat) → List (List Nat)
  | 0, sum, _ => if sum = 0 then [[]] else []
  | len + 1, sum, used =>
    (digits.filter fun d => decide (d ≤ sum ∧ d ∉ used)).flatMap fun d =>
      (permutationsAvoiding len (sum - d) (d :: used)).map (d :: ·)

/-- The sequences of `len` distinct digits that add up to `sum`. -/
def digitPermutations (len sum : Nat) : List (List Nat) := permutationsAvoiding len sum []

/-- Lists the sequences of `len` distinct digits that add up to `sum`, if there is room for one. -/
def digitPermutations? (len sum : Nat) : Except AllocationFault (List (List Nat)) :=
  (reserve len).map fun _ => digitPermutations len sum

end BinaryCsp.Kakuro
