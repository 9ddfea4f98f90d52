import BinaryCsp.Constraint
import BinaryCsp.PartialMap

/-!
# Extensional constraints

An `AllowedPairs` table lists, for each ordered pair of variables, the pairs of values that may
stand together.  Asking about `(a, b)` and about `(b, a)` reads two different rows; `allow` fills
both, `allowDirected` one.  A pair of variables without a row allows nothing.
-/

namespace BinaryCsp

/-- The allowed pairs of values, row by row; a row is an ordered pair of variables. -/
structure AllowedPairs (V T : Type) where
  rows : PartialMap (V × V) (List (T × T))

namespace AllowedPairs

variable {V T : Type}

def empty : AllowedPairs V T := ⟨PartialMap.empty⟩

def size (t : AllowedPairs V T) : Nat := t.rows.entries.foldr (fun e n => e.2.length + n) 0

def isEmpty (t : AllowedPairs V T) : Bool := t.rows.size == 0

variable [DecidableEq V]

/-- The allowed pairs of values of an ordered pair of variables. -/
def row (t : AllowedPairs V T) (a b : V) : List (T × T) := (t.rows.get? (a, b)).getD []

variable [DecidableEq T]

/-- Allows `a = x` with `b = y`, asked in that order. -/
def allowDirected (t : AllowedPairs V T) (a : V) (x : T) (b : V) (y : T) : AllowedPairs V T :=
  ⟨t.rows.insert (a, b) ((t.row a b).insert (x, y))⟩

/-- Allows `a = x` with `b = y`, asked in either order. -/
def allow (t : AllowedPairs V T) (a : V) (x : T) (b : V) (y : T) : AllowedPairs V T :=
  (t.allowDirected b y a x).allowDirected a x b y

/-- Whether `a = x` may stand with `b = y`, asked in that order. -/
def check (t : AllowedPairs V T) (a : V) (x : T) (b : V) (y : T) : Bool :=
  decide ((x, y) ∈ t.row a b)

def toConstraint (t : AllowedPairs V T) : Constraint V T where
  check := t.check
  descriptor := ⟨"TableConstraint", toString t.size ++ " allowed pairs over " ++
    toString t.rows.size ++ " directed variable pairs"⟩

end AllowedPairs

end BinaryCsp
