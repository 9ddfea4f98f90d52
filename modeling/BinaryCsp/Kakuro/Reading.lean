import BinaryCsp.Kakuro.Grid
import BinaryCsp.Text.Blank
import BinaryCsp.Text.Numeral
import BinaryCsp.Text.Quoted

/-!
# Reading a grid

A grid is written one row a line, its squares separated by white space: `*` for a blocked square,
`_` for an empty one, and two sums around a backslash for a clue, either of which may be left out.
Lines without a word, and lines whose first word starts with `#`, count as comments.

`Grid.read` accepts a text if every word is a square, all rows are equally long, and every clue has
at least one empty square to speak of.  Otherwise it names the line at fault: first the rows are
read from top to bottom, then the clues are looked at row by row.
-/

namespace BinaryCsp.Kakuro

/-! ## Faults -/

inductive Flaw where
  | unrecognizedSquare (word : String)
  /-- A clue one side of which is no sum. -/
  | badClue (word : String)
  | emptyClue
  | rowLength (expected found : Nat)
  | emptyGrid
  /-- A clue with no empty square ahead. -/
  | clueWithoutCells (direction : Direction) (column : Nat)
  deriving DecidableEq

/-- A flaw and the number of its line; lines count from one, and zero stands for no line. -/
structure ReadFault where
  line : Nat
  flaw : Flaw
  deriving DecidableEq

def Direction.name : Direction → String
  | .down => "Down"
  | .right => "Right"

def Flaw.message : Flaw → String
  | unrecognizedSquare w => "unrecognized square " ++ Text.quoted w
  | badClue w => "bad clue " ++ Text.quoted w
  | emptyClue => "a clue square needs at least one sum"
  | rowLength n m => "expected " ++ toString n ++ " squares, found " ++ toString m
  | emptyGrid => "the grid is empty"
  | clueWithoutCells d col =>
    "the " ++ d.name ++ " clue in column " ++ toString col ++ " has no cells"

def ReadFault.message (f : ReadFault) : String :=
  "invalid puzzle at line " ++ toString f.line ++ ": " ++ f.flaw.message

/-! ## Sums -/

/-- The largest sum that can be written. -/
def largestSum : Nat := UInt32.size - 1

/-- Reads one side of a clue: nothing, or a sum. -/
def readSide (cs : List Char) : Option (Option Nat) :=
  if cs = [] then some none
  else
    match Text.numeral? cs with
    | some n => if n ≤ largestSum then some (some n) else none
    | none => none

/-! ## Squares and rows -/

def readSquare (word : List Char) : Except Flaw Square :=
  if word = ['*'] then .ok .blocked
  else if word = ['_'] then .ok .empty
  else if '\\' ∈ word then
    match readSide (word.takeWhile (· != '\\')), readSide ((word.dropWhile (· != '\\')).drop 1) with
    | some none, some none => .error .emptyClue
    | some down, some right => .ok (.clue down right)
    | _, _ => .error (.badClue (String.ofList word))
  else .error (.unrecognizedSquare (String.ofList word))

def readSquares : List (List Char) → Except Flaw (List Square)
  | [] => .ok []
  | w :: ws =>
    match readSquare w with
    | .error f => .error f
    | .ok s =>
      match readSquares ws with
      | .error f => .error f
      | .ok ss => .ok (s :: ss)

/-- Reads one row, which must be of the given length if one is given. -/
def readRow (length : Option Nat) (ws : List (List Char)) : Except Flaw (List Square) :=
  match readSquares ws with
  | .error f => .error f
  | .ok row =>
    match length with
    | none => .ok row
    | some n => if row.length = n then .ok row else .error (.rowLength n row.length)

/-- Whether a line with these words is a row of the grid. -/
def isSignificant (ws : List (List Char)) : Bool :=
  match ws with
  | [] => false
  | w :: _ => w.head? != some '#'

/-- The rows of a text: the words of each significant line, with the number of the line. -/
def significantLines (text : String) : List (Nat × List (List Char)) :=
  ((Text.lines text.toList).zipIdx.map fun l => (l.2 + 1, Text.words l.1)).filter
    fun l => isSignificant l.2

/-- Reads rows, all as long as the first. -/
def readRows : Option Nat → List (Nat × List (List Char)) →
    Except ReadFault (List (Nat × List Square))
  | _, [] => .ok []
  | length, (line, ws) :: rest =>
    match readRow length ws with
    | .error f => .error ⟨line, f⟩
    | .ok row =>
      match readRows (some (length.getD row.length)) rest with
      | .error f => .error f
      | .ok rows => .ok ((line, row) :: rows)

/-- The first clue without an empty square ahead. -/
def Grid.idleClue? (g : Grid) : Option Clue := g.clues.find? fun c => (g.run c).isEmpty

def Grid.read (text : String) : Except ReadFault Grid :=
  match readRows none (significantLines text) with
  | .error f => .error f
  | .ok [] => .error ⟨0, .emptyGrid⟩
  | .ok rows =>
    let grid : Grid := ⟨rows.map Prod.snd⟩
    match grid.idleClue? with
    | none => .ok grid
    | some c =>
      .error ⟨((rows.map Prod.fst)[c.row]?).getD 0, .clueWithoutCells c.direction (c.col + 1)⟩

end BinaryCsp.Kakuro
