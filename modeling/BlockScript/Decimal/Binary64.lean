/-!
# Binary64 numbers

A finite number of the format binary64 is `mantissa * 2 ^ exponent` with a mantissa below `2 ^ 53` and an exponent
from `-1074` to `971`; of several such pairs the one with the least exponent is taken.  `ofDecimal` gives the number
nearest to a decimal one, and of two equally near ones the one with an even mantissa.
-/

namespace BlockScript

/-- A number of the format binary64. -/
inductive Binary64 where
  | finite (negative : Bool) (mantissa : Nat) (exponent : Int)
  | infinity (negative : Bool)
  | nan
  deriving DecidableEq, Repr

namespace Binary64

/-- A power of two. -/
def twoTo (n : Nat) : Nat :=
  Nat.pow 2 n

/-- A power of ten. -/
def tenTo (n : Nat) : Nat :=
  Nat.pow 10 n

/-- The quotient rounded to the nearest natural number, a tie to the even one. -/
def divNearest (num den : Nat) : Nat :=
  let q := num / den
  let r := num % den
  if 2 * r < den then q
  else if den < 2 * r then q + 1
  else q + q % 2

/-- The number of decimal digits. -/
def digitCount (n : Nat) : Nat :=
  (Nat.toDigits 10 n).length

/-- The quotient `num / den * 2 ^ (-exponent)` as a pair of natural numbers. -/
def scaled (num den : Nat) (exponent : Int) : Nat × Nat :=
  if exponent < 0 then (num * twoTo exponent.natAbs, den) else (num, den * twoTo exponent.natAbs)

/-- The exponent at which a positive quotient has a mantissa of 53 bits, but no less than `-1074`. -/
def exponentOf (num den : Nat) : Int :=
  let guess : Int := (Nat.log2 num : Int) - Nat.log2 den - 52
  let (n, d) := scaled num den guess
  max (-1074) (if n / d < twoTo 52 then guess - 1 else guess)

/-- The number nearest to a positive quotient. -/
def ofQuotient (negative : Bool) (num den : Nat) : Binary64 :=
  let exponent := exponentOf num den
  let (n, d) := scaled num den exponent
  let mantissa := divNearest n d
  let (mantissa, exponent) := if mantissa = twoTo 53 then (twoTo 52, exponent + 1) else (mantissa, exponent)
  if exponent > 971 then .infinity negative else .finite negative mantissa exponent

/-- The number nearest to `digits * 10 ^ exponent`.  A number of 400 places before the point is beyond all finite
ones, and one with 400 zeros behind the point is nearest to zero. -/
def ofDecimal (negative : Bool) (digits : Nat) (exponent : Int) : Binary64 :=
  let places : Int := digitCount digits + exponent
  if digits = 0 || places < -400 then .finite negative 0 (-1074)
  else if places > 400 then .infinity negative
  else if exponent < 0 then ofQuotient negative digits (tenTo exponent.natAbs)
  else ofQuotient negative (digits * tenTo exponent.natAbs) 1

end Binary64

end BlockScript
