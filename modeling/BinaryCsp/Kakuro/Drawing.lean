import BinaryCsp.Kakuro.Encoding

/-!
# Drawing a grid

A grid is drawn as it is read: one row a line, `*`, `_`, and two sums around a backslash.  All
squares are padded on the left to the width of the widest, and one blank stands between two.  Empty
squares to which an assignment gives a digit show the digit.
-/

namespace BinaryCsp.Kakuro

def sideText (side : Option Nat) : String := (side.map toString).getD ""

/-- One square, an empty one with its digit if it has one. -/
def squareText (digit : Option Nat) : Square → String
  | .blocked => "*"
  | .empty => (digit.map toString).getD "_"
  | .clue down right => sideText down ++ "\\" ++ sideText right

def padLeft (width : Nat) (s : String) : String := "".pushn ' ' (width - s.length) ++ s

namespace Grid

/-- The texts of all squares, row by row. -/
def texts (g : Grid) (digitAt : Nat × Nat → Option Nat) : List (List String) :=
  g.rows.zipIdx.map fun r => r.1.zipIdx.map fun s => squareText (digitAt (r.2, s.2)) s.1

/-- Draws the grid with some of its empty squares filled in. -/
def drawWith (g : Grid) (digitAt : Nat × Nat → Option Nat) : String :=
  let texts := g.texts digitAt
  let width := ((texts.flatten.map String.length).max?).getD 1
  String.join (texts.map fun row => " ".intercalate (row.map (padLeft width)) ++ "\n")

def draw (g : Grid) : String := g.drawWith fun _ => none

/-- Draws the grid with the digits of an assignment. -/
def drawSolved (g : Grid) (a : Assignment Variable Value) : String :=
  let known := PartialMap.ofList (cellDigits a)
  g.drawWith known.get?

end Grid

end BinaryCsp.Kakuro
