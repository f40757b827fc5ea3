import BlockScript.Json.Basic
import BlockScript.Keyed
import BlockScript.Text.Hex
import BlockScript.Text.Integer

/-!
# Reading JSON

`Json.read` reads a text that is one JSON value and nothing else.  The names `NaN`, `Infinity` and `-Infinity` are
numbers.  Of several members of one name the last one counts, at the place of the first.  Whole numbers have a limit
on their digits.  A text is read from left to right, and the first fault ends reading.
-/

namespace BlockScript.Json

/-- Why a text is no value. -/
inductive ReadFault where
  | malformed
  /-- A whole number with more digits than whole numbers may have. -/
  | tooManyDigits (count : Nat)
  deriving DecidableEq, Repr

/-- What reading a part of a text gives. -/
abbrev Reading := Except ReadFault

/-- What was found, or else the text is malformed. -/
def orMalformed {α : Type} (found : Option α) : Reading α :=
  found.elim (.error .malformed) .ok

/-- The text behind its white space, which is the space, the tab and the two line ends. -/
def skipSpace (t : Text) : Text :=
  t.dropWhile fun c => c == ' ' || c == '\t' || c == '\n' || c == '\r'

/-- The value of a numeral of decimal digits. -/
def numeral (digits : Text) : Nat :=
  digits.foldl (fun n c => 10 * n + (c.toNat - '0'.toNat)) 0

/-- The digits at the beginning of a text, and the rest. -/
def spanDigits (t : Text) : Text × Text :=
  (t.takeWhile Char.isDigit, t.dropWhile Char.isDigit)

/-- The digits behind a point, if there are any, and the rest. -/
def readFraction (t : Text) : Text × Text :=
  match t with
  | '.' :: rest => if (spanDigits rest).1 = [] then ([], t) else spanDigits rest
  | _ => ([], t)

/-- The exponent of a number, if there is one, and the rest. -/
def readExponent (t : Text) : Option Int × Text :=
  match t with
  | c :: rest =>
    if c == 'e' || c == 'E' then
      let (negative, rest) : Bool × Text :=
        match rest with
        | '-' :: rest => (true, rest)
        | '+' :: rest => (false, rest)
        | _ => (false, rest)
      let (digits, rest) := spanDigits rest
      if digits = [] then (none, t)
      else (some (if negative then -(numeral digits : Int) else numeral digits), rest)
    else (none, t)
  | [] => (none, t)

/-- The number at the beginning of a text, whose sign has been read, and the rest.  A number with a fraction or an
exponent is real, and may have any number of digits. -/
def readNumber (negative : Bool) (t : Text) : Reading (Json × Text) :=
  let (whole, rest) : Text × Text :=
    match t with
    | '0' :: rest => (['0'], rest)
    | _ => spanDigits t
  if whole = [] then .error .malformed
  else
    let (fraction, rest) := readFraction rest
    let (exponent, rest) := readExponent rest
    if fraction ≠ [] || exponent.isSome then
      let value := Binary64.ofDecimal negative (numeral (whole ++ fraction)) (exponent.getD 0 - fraction.length)
      .ok (.real value, rest)
    else if whole.length ≤ Text.maxDigits then
      .ok (.int (if negative then -(numeral whole : Int) else numeral whole), rest)
    else .error (.tooManyDigits whole.length)

/-- The code unit of four hexadecimal digits, and the rest. -/
def readUnit? (t : Text) : Option (Nat × Text) := do
  guard (4 ≤ t.length)
  let digits ← (t.take 4).mapM hexValue?
  some (digits.foldl (fun n d => 16 * n + d) 0, t.drop 4)

/-- The character of a code point.  A code point that is none stands for the replacement character. -/
def charOf (n : Nat) : Char :=
  if n.isValidChar then Char.ofNat n else '\uFFFD'

/-- The character of an escape of code units, and the rest.  A high surrogate and the low one behind it make one
character. -/
def readEscapedUnit? (t : Text) : Option (Char × Text) := do
  let (unit, rest) ← readUnit? t
  if 0xD800 ≤ unit && unit < 0xDC00 then
    match rest with
    | '\\' :: 'u' :: more =>
      match readUnit? more with
      | some (low, rest') =>
        if 0xDC00 ≤ low && low < 0xE000 then
          some (charOf (0x10000 + (unit - 0xD800) * 0x400 + (low - 0xDC00)), rest')
        else some (charOf unit, rest)
      | none => some (charOf unit, rest)
    | _ => some (charOf unit, rest)
  else some (charOf unit, rest)

/-- The characters that an escape of one letter stands for. -/
def escapes : List (Char × Char) :=
  [('"', '"'), ('\\', '\\'), ('/', '/'), ('b', '\x08'), ('f', '\x0c'), ('n', '\n'), ('r', '\r'), ('t', '\t')]

/-- The characters of a string up to its closing quote, and the rest.  Control characters must be escaped. -/
def readChars? : (fuel : Nat) → Text → Option (Text × Text)
  | 0, _ => none
  | fuel + 1, t =>
    match t with
    | [] => none
    | '"' :: rest => some ([], rest)
    | '\\' :: 'u' :: rest => do
      let (c, rest) ← readEscapedUnit? rest
      let (chars, rest) ← readChars? fuel rest
      some (c :: chars, rest)
    | '\\' :: e :: rest => do
      let c ← escapes.lookup e
      let (chars, rest) ← readChars? fuel rest
      some (c :: chars, rest)
    | c :: rest => do
      guard (c != '\\' && 0x20 ≤ c.toNat)
      let (chars, rest) ← readChars? fuel rest
      some (c :: chars, rest)

/-- The string whose opening quote has been read, and the rest. -/
def readString? (t : Text) : Option (String × Text) :=
  (readChars? (t.length + 1) t).map fun found => (String.ofList found.1, found.2)

/-- The values that are named, and their names. -/
def constants : List (Text × Json) :=
  [("null".toList, .null), ("true".toList, .bool true), ("false".toList, .bool false),
    ("NaN".toList, .real .nan), ("Infinity".toList, .real (.infinity false)),
    ("-Infinity".toList, .real (.infinity true))]

mutual

/-- The value at the beginning of a text, and the rest. -/
def readValue : (fuel : Nat) → Text → Reading (Json × Text)
  | 0, _ => .error .malformed
  | fuel + 1, t =>
    match t with
    | '"' :: rest => (orMalformed (readString? rest)).map fun found => (.text found.1, found.2)
    | '[' :: rest =>
      match skipSpace rest with
      | ']' :: rest => .ok (.list [], rest)
      | rest => (readItems fuel rest).map fun found => (.list found.1, found.2)
    | '\x7b' :: rest =>
      match skipSpace rest with
      | '\x7d' :: rest => .ok (.object [], rest)
      | rest => (readMembers fuel rest).map fun found => (.object (Keyed.collect Prod.fst found.1), found.2)
    | _ =>
      match constants.findSome? fun known => (Text.after? known.1 t).map fun rest => (known.2, rest) with
      | some found => .ok found
      | none =>
        match t with
        | '-' :: rest => readNumber true rest
        | _ => readNumber false t

/-- The items of a list up to its closing bracket, and the rest. -/
def readItems : (fuel : Nat) → Text → Reading (List Json × Text)
  | 0, _ => .error .malformed
  | fuel + 1, t => do
    let (item, rest) ← readValue fuel t
    match skipSpace rest with
    | ']' :: rest => .ok ([item], rest)
    | ',' :: rest => do
      let (items, rest) ← readItems fuel (skipSpace rest)
      .ok (item :: items, rest)
    | _ => .error .malformed

/-- The members of an object up to its closing brace, and the rest. -/
def readMembers : (fuel : Nat) → Text → Reading (List (String × Json) × Text)
  | 0, _ => .error .malformed
  | fuel + 1, t =>
    match t with
    | '"' :: rest => do
      let (name, rest) ← orMalformed (readString? rest)
      match skipSpace rest with
      | ':' :: rest => do
        let (value, rest) ← readValue fuel (skipSpace rest)
        match skipSpace rest with
        | '\x7d' :: rest => .ok ([(name, value)], rest)
        | ',' :: rest => do
          let (members, rest) ← readMembers fuel (skipSpace rest)
          .ok ((name, value) :: members, rest)
        | _ => .error .malformed
      | _ => .error .malformed
    | _ => .error .malformed

end

/-- The value that a text is.  Each step of reading takes a character, so their number is enough for the steps. -/
def read (t : Text) : Reading Json := do
  let (value, rest) ← readValue (t.length + 1) (skipSpace t)
  if skipSpace rest = [] then .ok value else .error .malformed

end BlockScript.Json
