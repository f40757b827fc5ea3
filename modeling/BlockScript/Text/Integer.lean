import BlockScript.Text.DecimalDigit

/-!
# Integers

A whole number is written with decimal digits of any script.  Blanks may surround it, a sign may stand in front of
it, and single underscores may stand between its digits.
-/

namespace BlockScript.Text

/-- The most digits that a whole number is read from. -/
def maxDigits : Nat :=
  4300

/-- A blank that may surround a whole number: any but the separators `1C` to `1F`. -/
def isMargin (c : Char) : Bool :=
  isBlank c && !(0x1C ≤ c.toNat && c.toNat ≤ 0x1F)

/-- The values of digits with single underscores between them. -/
def digitValues? : Text → Option (List Nat)
  | [] => none
  | [c] => (digitValue? c).map fun d => [d]
  | c :: '_' :: rest => do
    let d ← digitValue? c
    let ds ← digitValues? rest
    some (d :: ds)
  | c :: rest => do
    let d ← digitValue? c
    let ds ← digitValues? rest
    some (d :: ds)

/-- The value of digits with single underscores between them. -/
def natural? (t : Text) : Option Nat := do
  let digits ← digitValues? t
  guard (digits.length ≤ maxDigits)
  some (digits.foldl (fun n d => 10 * n + d) 0)

/-- The whole number that a text is. -/
def integer? (t : Text) : Option Int :=
  let inner := ((t.dropWhile isMargin).reverse.dropWhile isMargin).reverse
  match inner with
  | '-' :: digits => (natural? digits).map fun n => -(n : Int)
  | '+' :: digits => (natural? digits).map Int.ofNat
  | digits => (natural? digits).map Int.ofNat

end BlockScript.Text
