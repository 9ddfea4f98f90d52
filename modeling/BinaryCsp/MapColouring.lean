import BinaryCsp.Problem

/-!
# Map colouring

Regions that share a border must get different colours.
-/

namespace BinaryCsp

inductive Colour where
  | red
  | green
  | blue
  | yellow
  deriving DecidableEq

namespace Colour

/-- The three colours that most maps need. -/
def rgb : List Colour := [red, green, blue]

def all : List Colour := [red, green, blue, yellow]

def name : Colour → String
  | red => "Red"
  | green => "Green"
  | blue => "Blue"
  | yellow => "Yellow"

end Colour

namespace MapColouring

variable {R : Type} [DecidableEq R] [LE R] [DecidableLE R]

/-- The neighbor lists that borders make: each border in the lists of both its regions. -/
def links (borders : List (R × R)) : List (R × List R) :=
  borders.flatMap fun b => [(b.1, [b.2]), (b.2, [b.1])]

def problem (regions : List R) (borders : List (R × R)) (colours : List Colour) :
    Except (Fault R Colour) (Problem R Colour) :=
  Problem.build regions (regions.map fun r => (r, colours)) (links borders) Constraint.notEqual

/-- The mainland states and territories of Australia, and Tasmania, in three colours. -/
def australia : Except (Fault String Colour) (Problem String Colour) :=
  problem ["WA", "NT", "SA", "Q", "NSW", "V", "T"]
    [("WA", "NT"), ("WA", "SA"), ("NT", "SA"), ("NT", "Q"), ("SA", "Q"), ("SA", "NSW"),
      ("SA", "V"), ("Q", "NSW"), ("NSW", "V")]
    Colour.rgb

end MapColouring

end BinaryCsp
