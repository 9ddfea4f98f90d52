import BinaryCsp.Assignment
import BinaryCsp.Kakuro.Grid
import BinaryCsp.Kakuro.Permutations

/-!
# A grid as a binary problem

The rule that the digits of a run add up to its clue speaks of more than two squares, so each run
becomes a variable of its own.  A *cell* takes a digit; a *run* takes a sequence of distinct digits
of the right length and sum; a cell and a run that crosses it go together if the sequence has the
cell's digit at the cell's place in the run.

Variables are declared row by row: an empty square as its cell, a clue as its runs, down before
right.
-/

namespace BinaryCsp.Kakuro

/-! ## Variables and values -/

/-- Whether one place comes before or is another, row by row. -/
def placeLE (p q : Nat × Nat) : Bool := p.1 < q.1 || (p.1 == q.1 && p.2 ≤ q.2)

inductive Variable where
  | cell (row col : Nat)
  /-- The run of the clue at a place. -/
  | run (row col : Nat) (direction : Direction)
  deriving DecidableEq

inductive Value where
  | digit (d : Nat)
  /-- The digits of a run, in order. -/
  | permutation (ds : List Nat)
  deriving DecidableEq

namespace Variable

/-- Whether one variable comes before or is another: cells before runs, each kind row by row, a
down run before a right run of the same clue. -/
def le : Variable → Variable → Bool
  | cell row col, cell row' col' => placeLE (row, col) (row', col')
  | cell .., run .. => true
  | run .., cell .. => false
  | run row col d, run row' col' d' =>
    if (row, col) = (row', col') then decide (d = .down ∨ d' = .right)
    else placeLE (row, col) (row', col')

instance : LE Variable := ⟨fun a b => a.le b = true⟩

instance : DecidableLE Variable := fun a b => inferInstanceAs (Decidable (a.le b = true))

def text : Variable → String
  | cell row col => "Cell \x7b row: " ++ toString row ++ ", col: " ++ toString col ++ " \x7d"
  | run row col d =>
    "Run \x7b row: " ++ toString row ++ ", col: " ++ toString col ++ ", direction: " ++
      (match d with
        | .down => "Down"
        | .right => "Right") ++ " \x7d"

end Variable

def Value.text : Value → String
  | digit d => "Digit(" ++ toString d ++ ")"
  | permutation ds => "Permutation([" ++ ", ".intercalate (ds.map toString) ++ "])"

/-! ## The constraint -/

/-- Whether a run has a digit at the place of a cell. -/
def digitMatches : (cell : Variable) → Nat → (run : Variable) → List Nat → Bool
  | .cell row _, d, .run clueRow _ .down, ds =>
    decide (clueRow + 1 ≤ row ∧ ds[row - (clueRow + 1)]? = some d)
  | .cell _ col, d, .run _ clueCol .right, ds =>
    decide (clueCol + 1 ≤ col ∧ ds[col - (clueCol + 1)]? = some d)
  | _, _, _, _ => false

/-- A cell and a run go together, in either order, if the run has the digit of the cell at its
place.  No other pair goes together. -/
def crossing : Constraint Variable Value where
  check a x b y :=
    match x, y with
    | .digit d, .permutation ds => digitMatches a d b ds
    | .permutation ds, .digit d => digitMatches b d a ds
    | _, _ => false
  descriptor := ⟨"KakuroConstraint", "a cell's digit sits at its offset in the crossing run"⟩

/-! ## The problem -/

def Clue.toVariable (c : Clue) : Variable := .run c.row c.col c.direction

namespace Grid

variable (g : Grid)

def runDomain (c : Clue) : List Value :=
  (digitPermutations (g.run c).length c.sum).map .permutation

/-- The variables of one square with their domains. -/
def squareDomains (p : Nat × Nat × Square) : List (Variable × List Value) :=
  match p with
  | (row, col, .empty) => [(.cell row col, digits.map .digit)]
  | (row, col, s) => (s.clues row col).map fun c => (c.toVariable, g.runDomain c)

/-- The variables with their domains, row by row. -/
def domains : List (Variable × List Value) := g.places.flatMap g.squareDomains

/-- The links of one run: the run with its cells, and each cell with the run. -/
def runLinks (c : Clue) : List (Variable × List Variable) :=
  let cells := (g.run c).map fun p => Variable.cell p.1 p.2
  (c.toVariable, cells) :: cells.map fun v => (v, [c.toVariable])

def toProblem : Except (Fault Variable Value) (Problem Variable Value) :=
  let domains := g.domains
  Problem.build (domains.map Prod.fst) domains (g.clues.flatMap g.runLinks) crossing

end Grid

/-! ## Reading an assignment back -/

/-- The digits that an assignment gives to cells, with their places. -/
def cellDigits (a : Assignment Variable Value) : List ((Nat × Nat) × Nat) :=
  a.entries.filterMap fun e =>
    match e with
    | (.cell row col, .digit d) => some ((row, col), d)
    | _ => none

/-- The digits of the cells, ordered by place. -/
def sortedDigits (a : Assignment Variable Value) : List ((Nat × Nat) × Nat) :=
  (cellDigits a).mergeSort fun e f => placeLE e.1 f.1

end BinaryCsp.Kakuro
