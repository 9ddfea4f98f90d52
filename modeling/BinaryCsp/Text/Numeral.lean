/-!
# Decimal numerals

A numeral is a row of decimal digits, those of ASCII only.  `numeral?` reads one of at least one
digit, which may follow a plus sign; leading zeros count for nothing.
-/

namespace BinaryCsp.Text

def isDigit (c : Char) : Bool := '0' ≤ c && c ≤ '9'

/-- The number that a row of digits writes. -/
def digitsValue (cs : List Char) : Nat := cs.foldl (fun n c => 10 * n + (c.toNat - 48)) 0

/-- Reads a number of at least one digit, perhaps after a plus sign. -/
def numeral? (cs : List Char) : Option Nat :=
  let digits := if cs.head? = some '+' then cs.drop 1 else cs
  if digits ≠ [] ∧ digits.all isDigit then some (digitsValue digits) else none

end BinaryCsp.Text
