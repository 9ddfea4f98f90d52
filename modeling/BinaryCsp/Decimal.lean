/-!
# Binary fractions and decimal places

`nearestBinary` rounds a quotient to 53 significant binary digits, as double precision does, and
gives it as a fraction whose denominator is a power of two.  `hundredths` writes a fraction with two
decimal places.  Both round to the nearest, a tie to the even neighbor, and both compute on natural
numbers alone.
-/

namespace BinaryCsp.Decimal

/-- A quotient rounded to the nearest whole number, a tie to the even one. -/
def roundDiv (num den : Nat) : Nat :=
  let q := num / den
  let r := num % den
  if 2 * r < den then q
  else if den < 2 * r then q + 1
  else q + q % 2

/-- The fraction with 53 significant binary digits that is nearest to a quotient.  The quotient is
zero or at least 2⁻⁶⁴. -/
def nearestBinary (num den : Nat) : Nat × Nat :=
  if num = 0 then (0, 1)
  else
    let magnitude := ((num <<< 64) / den).log2
    if magnitude ≤ 116 then
      (roundDiv (num <<< (116 - magnitude)) den, 1 <<< (116 - magnitude))
    else
      (roundDiv num (den <<< (magnitude - 116)) <<< (magnitude - 116), 1)

/-- A fraction with two decimal places. -/
def hundredths (num den : Nat) : String :=
  let n := roundDiv (100 * num) den
  toString (n / 100) ++ "." ++ (if n % 100 < 10 then "0" else "") ++ toString (n % 100)

end BinaryCsp.Decimal
