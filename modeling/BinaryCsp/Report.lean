import BinaryCsp.Decimal
import BinaryCsp.Stats
import BinaryCsp.Text.Blank
import BinaryCsp.Text.Width

/-!
# Reports on runs

A `Report` is the label, the outcome and the counters of one run.  `table` sets reports side by
side, the fastest first; `listing` writes them as JSON.

A table is ruled around every row.  A column is as wide as its widest line, counted in columns of a
terminal; a cell may hold several lines, and its row is as high as its highest cell.
-/

namespace BinaryCsp

structure Report where
  label : String
  outcome : String
  stats : Stats
  deriving DecidableEq

namespace Report

/-! ## The cells -/

/-- Microseconds as milliseconds with two places.  The quotient is taken in double precision. -/
def milliseconds (micros : Nat) : String :=
  let whole := Decimal.nearestBinary micros 1
  let quotient := Decimal.nearestBinary whole.1 (whole.2 * 1000)
  Decimal.hundredths quotient.1 quotient.2

def heading : List String :=
  ["Strategy", "Outcome", "Nodes", "Backtracks", "Assignments", "Checks", "Prunings", "Steps",
    "Time (ms)"]

def cells (r : Report) : List String :=
  [r.label, r.outcome, toString r.stats.nodesVisited, toString r.stats.backtracks,
    toString r.stats.assignments, toString r.stats.checks, toString r.stats.prunings,
    toString r.stats.minConflictsSteps, milliseconds r.stats.elapsedMicros]

/-- The rows of a table: the heading, then the reports, the fastest first. -/
def rows (rs : List Report) : List (List String) :=
  heading ::
    (rs.mergeSort fun r s => decide (r.stats.elapsedMicros ≤ s.stats.elapsedMicros)).map cells

/-! ## The table -/

/-- Takes a carriage return off the end of a line. -/
def dropReturn (l : List Char) : List Char :=
  if l.getLast? = some '\r' then l.dropLast else l

/-- The lines of a cell.  A line feed, perhaps after a carriage return, ends a line. -/
def cellLines (s : String) : List String :=
  let ls := Text.lines s.toList
  let ended := ls.dropLast.map dropReturn
  let last := ls.getLast?.getD []
  (if last = [] then ended else ended ++ [last]).map String.ofList

def cellWidth (s : String) : Nat := (((cellLines s).map Text.width).max?).getD 0

/-- The widths of the columns that fit all rows. -/
def columnWidths (rows : List (List String)) : List Nat :=
  rows.foldl (fun ws row => (List.range (max ws.length row.length)).map fun i =>
    max (ws.getD i 0) (((row[i]?).map cellWidth).getD 0)) []

/-- A line between two rows. -/
def rule (widths : List Nat) : String :=
  "+" ++ String.join (widths.map fun w => "".pushn '-' (w + 2) ++ "+") ++ "\n"

/-- One line of a cell, padded on the right. -/
def padRight (width : Nat) (s : String) : String := s ++ "".pushn ' ' (width - Text.width s)

/-- One row of a table, line by line. -/
def rowText (widths : List Nat) (row : List String) : String :=
  let columns := row.map cellLines
  let height := ((columns.map List.length).max?).getD 0
  String.join ((List.range height).map fun i =>
    "|" ++ String.join ((columns.zip widths).map fun c =>
      " " ++ padRight c.2 ((c.1[i]?).getD "") ++ " |") ++ "\n")

def ruled (rows : List (List String)) : String :=
  let widths := columnWidths rows
  rule widths ++ String.join (rows.map fun row => rowText widths row ++ rule widths)

def table (rs : List Report) : String := ruled (rows rs)

/-! ## The listing -/

/-- A character as it stands in a JSON string. -/
def jsonChar (c : Char) : String :=
  if c = '"' then "\\\""
  else if c = '\\' then "\\\\"
  else if c = '\n' then "\\n"
  else if c = '\r' then "\\r"
  else if c = '\t' then "\\t"
  else if c = '\x08' then "\\b"
  else if c = '\x0c' then "\\f"
  else if c.toNat < 32 then
    let digits := String.ofList (Nat.toDigits 16 c.toNat)
    "\\u" ++ "".pushn '0' (4 - digits.length) ++ digits
  else c.toString

def jsonText (s : String) : String := "\"" ++ String.join (s.toList.map jsonChar) ++ "\""

/-- The counters with their names, in order. -/
def counters (n : Stats) : List (String × Nat) :=
  [("nodes_visited", n.nodesVisited), ("backtracks", n.backtracks),
    ("assignments", n.assignments), ("checks", n.checks), ("prunings", n.prunings),
    ("propagations", n.propagations), ("min_conflicts_steps", n.minConflictsSteps),
    ("elapsed_micros", n.elapsedMicros)]

def listing (rs : List Report) : String :=
  let counter (c : String × Nat) := "      " ++ jsonText c.1 ++ ": " ++ toString c.2
  let item (r : Report) :=
    "  \x7b\n    \"label\": " ++ jsonText r.label ++ ",\n    \"outcome\": " ++ jsonText r.outcome ++
      ",\n    \"stats\": \x7b\n" ++ ",\n".intercalate ((counters r.stats).map counter) ++
      "\n    \x7d\n  \x7d"
  match rs with
  | [] => "[]"
  | _ => "[\n" ++ ",\n".intercalate (rs.map item) ++ "\n]"

end Report

end BinaryCsp
