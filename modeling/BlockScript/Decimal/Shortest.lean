import BlockScript.Decimal.Binary64
import BlockScript.Text.Basic

/-!
# Shortest decimals

The shortest decimal of a binary64 number is the one with the fewest digits among those that round to the number,
and of several such the nearest to it.  `Binary64.text` writes it: positionally for numbers from `0.0001` up to
`10 ^ 16`, with an exponent of two digits or more beyond.
-/

namespace BlockScript.Binary64

/-- The decimal exponent of the first digit of a positive quotient. -/
def firstPlace (num den : Nat) : Int :=
  if den ≤ num then digitCount (num / den) - 1
  else
    let below : Nat := digitCount (den / num) - 1
    if num * tenTo below = den then -(below : Int) else -(below : Int) - 1

/-- The multiples of `10 ^ place` next to the quotient `num / den`, the lower one first, as factors, with the two
sides of the comparison scaled by the same number. -/
def gridPoint (num den : Nat) (place : Int) : Nat :=
  if place < 0 then num * tenTo place.natAbs / den else num / (den * tenTo place.natAbs)

/-- How far `factor * 10 ^ place` lies from `num / den`, in units that depend on `den` and `place` only. -/
def distance (num den factor : Nat) (place : Int) : Nat :=
  if place < 0 then ((num * tenTo place.natAbs : Nat) - (factor * den : Nat) : Int).natAbs
  else ((num : Int) - (factor * tenTo place.natAbs * den : Nat)).natAbs

/-- Whether `factor * 10 ^ place` lies between `low / den` and `high / den`, or on one of them if `closed`. -/
def isBetween (low high den factor : Nat) (place : Int) (closed : Bool) : Bool :=
  let (l, x, h) :=
    if place < 0 then (low * tenTo place.natAbs, factor * den, high * tenTo place.natAbs)
    else (low, factor * tenTo place.natAbs * den, high)
  if closed then l ≤ x && x ≤ h else l < x && x < h

/-- The factor of the multiple of `10 ^ place` that is to stand for `num / den`, if one of its two neighbours on
this grid lies between the bounds: the nearer one, and of two equally near ones the even one. -/
def candidate? (low num high den : Nat) (closed : Bool) (place : Int) : Option Nat :=
  let lower := gridPoint num den place
  let fits := fun factor => 0 < factor && isBetween low high den factor place closed
  match fits lower, fits (lower + 1) with
  | false, false => none
  | true, false => some lower
  | false, true => some (lower + 1)
  | true, true =>
    let down := distance num den lower place
    let up := distance num den (lower + 1) place
    some (if down < up || (down = up && lower % 2 = 0) then lower else lower + 1)

/-- The shortest decimal of a positive number, as a factor and a power of ten. -/
def shortest (mantissa : Nat) (exponent : Int) : Nat × Int :=
  let below := if mantissa = twoTo 52 && exponent > -1074 then 1 else 2
  let unit := if exponent - 2 < 0 then 1 else twoTo (exponent - 2).natAbs
  let den := if exponent - 2 < 0 then twoTo (exponent - 2).natAbs else 1
  let num := 4 * mantissa * unit
  let low := (4 * mantissa - below) * unit
  let high := (4 * mantissa + 2) * unit
  let first := firstPlace num den
  let places := (List.range 17).map fun (n : Nat) => first - (n : Int)
  ((places.findSome? fun place =>
    (candidate? low num high den (mantissa % 2 = 0) place).map fun factor => (factor, place))).getD (0, 0)

/-- Digits without the zeros at their end. -/
def significant (digits : Text) : Text :=
  (digits.reverse.dropWhile (· == '0')).reverse

/-- A decimal by its digits, the first of which is none or no zero, and the place of the point among them. -/
def layout (digits : Text) (point : Int) : Text :=
  if -4 < point && point ≤ 16 then
    if point ≤ 0 then ['0', '.'] ++ List.replicate point.natAbs '0' ++ digits
    else if digits.length ≤ point.natAbs then
      digits ++ List.replicate (point.natAbs - digits.length) '0' ++ ['.', '0']
    else digits.take point.natAbs ++ '.' :: digits.drop point.natAbs
  else
    let power := point - 1
    let fraction := if digits.length ≤ 1 then [] else '.' :: digits.drop 1
    digits.take 1 ++ fraction ++ ['e', if power < 0 then '-' else '+'] ++
      (Nat.toDigits 10 power.natAbs).leftpad 2 '0'

/-- The text of a number. -/
def text : Binary64 → Text
  | nan => "nan".toList
  | infinity negative => (if negative then "-inf" else "inf").toList
  | finite negative mantissa exponent =>
    let magnitude :=
      if mantissa = 0 then "0.0".toList
      else
        let (factor, place) := shortest mantissa exponent
        let digits := Nat.toDigits 10 factor
        layout (significant digits) (digits.length + place)
    if negative then '-' :: magnitude else magnitude

end BlockScript.Binary64
