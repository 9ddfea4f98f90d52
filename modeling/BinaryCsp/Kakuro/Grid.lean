/-!
# Kakuro grids

A grid is a table of squares.  A square is blocked, or empty and waits for a digit, or holds a clue:
the sum of the run of empty squares below it, of the run to its right, or both.

`Grid.clues` lists the clues row by row, a down clue before a right clue of the same square, and
`Grid.run` the squares that a clue speaks of.
-/

namespace BinaryCsp.Kakuro

/-- Which way a run goes from its clue. -/
inductive Direction where
  | down
  | right
  deriving DecidableEq

inductive Square where
  | blocked
  | empty
  | clue (down right : Option Nat)
  deriving DecidableEq

/-- A table of squares, row by row. -/
structure Grid where
  rows : List (List Square)
  deriving DecidableEq

/-- A clue: where it stands, which way it points, and the sum of its run. -/
structure Clue where
  row : Nat
  col : Nat
  direction : Direction
  sum : Nat
  deriving DecidableEq

def Square.clues (row col : Nat) : Square → List Clue
  | .clue down right =>
    (down.map fun sum => ⟨row, col, .down, sum⟩).toList ++
      (right.map fun sum => ⟨row, col, .right, sum⟩).toList
  | _ => []

namespace Grid

def height (g : Grid) : Nat := g.rows.length

/-- The number of columns: the length of the first row. -/
def breadth (g : Grid) : Nat := (g.rows.head?.map List.length).getD 0

/-- The square at a place, if the place lies within the grid. -/
def square? (g : Grid) (row col : Nat) : Option Square := (g.rows[row]?).bind (·[col]?)

/-- The squares of the grid with their places, row by row. -/
def places (g : Grid) : List (Nat × Nat × Square) :=
  g.rows.zipIdx.flatMap fun r => r.1.zipIdx.map fun s => (r.2, s.2, s.1)

/-- The clues of the grid, row by row, down before right. -/
def clues (g : Grid) : List Clue :=
  g.places.flatMap fun p => p.2.2.clues p.1 p.2.1

/-- What stands ahead of a place in a direction. -/
def ahead (g : Grid) (row col : Nat) : Direction → List (Option Square)
  | .down => (g.rows.drop (row + 1)).map (·[col]?)
  | .right => (((g.rows[row]?).getD []).drop (col + 1)).map some

/-- The number of empty squares directly ahead of a place. -/
def runLength (g : Grid) (row col : Nat) (d : Direction) : Nat :=
  ((g.ahead row col d).takeWhile fun s => decide (s = some .empty)).length

/-- The places of the empty squares directly ahead of a place, the nearest first. -/
def runAt (g : Grid) (row col : Nat) (d : Direction) : List (Nat × Nat) :=
  (List.range (g.runLength row col d)).map fun i =>
    match d with
    | .down => (row + 1 + i, col)
    | .right => (row, col + 1 + i)

def run (g : Grid) (c : Clue) : List (Nat × Nat) := g.runAt c.row c.col c.direction

end Grid

end BinaryCsp.Kakuro
