/-!
# Binary constraints

A constraint is one predicate for a whole problem: `check a x b y` says whether `a = x` and
`b = y` may stand together.  It is asked of neighbors only, in either order, and the two orders
need not agree.

Two everyday constraints stand here; the extensional one is in `BinaryCsp.Constraint.AllowedPairs`.
-/

namespace BinaryCsp

/-- How a constraint presents itself. -/
structure Descriptor where
  name : String
  description : String
  deriving DecidableEq

/-- A predicate on two assigned variables, with its presentation. -/
structure Constraint (V T : Type) where
  check : V → T → V → T → Bool
  descriptor : Descriptor

namespace Constraint

variable {V T : Type}

/-- A bare predicate, presented as such. -/
def ofPredicate (check : V → T → V → T → Bool) : Constraint V T where
  check := check
  descriptor := ⟨"Predicate", "user supplied binary predicate"⟩

/-- Neighbors must take different values. -/
def notEqual [DecidableEq T] : Constraint V T where
  check _ x _ y := !decide (x = y)
  descriptor := ⟨"NotEqualConstraint", "?a != ?b for every neighbor pair"⟩

/-- Neighbors must take the same value. -/
def equal [DecidableEq T] : Constraint V T where
  check _ x _ y := decide (x = y)
  descriptor := ⟨"EqualConstraint", "?a == ?b for every neighbor pair"⟩

end Constraint

end BinaryCsp
