import BlockScript.Bracket
import BlockScript.Vocabulary.Operators

/-!
# Arithmetic

Arithmetic is split at the last operator of the lowest precedence outside all brackets.  An operator counts only
with a blank or a bracket on each side, so `-5` and `left-right` are no differences.
-/

namespace BlockScript.Arithmetic

/-- An operator: its sign and its operation. -/
structure Operator where
  sign : Text
  operation : Operation

/-- The operators of lower precedence. -/
def sums : List Operator :=
  [⟨['+'], .add⟩, ⟨['-'], .subtract⟩]

/-- The operators of higher precedence. -/
def products : List Operator :=
  [⟨['*'], .multiply⟩, ⟨['/'], .divide⟩, ⟨['m', 'o', 'd'], .modulo⟩]

/-- A character that can stand beside an operator. -/
def isEdge (c : Char) : Bool :=
  isBlank c || c == '(' || c == ')' || c == '[' || c == ']'

/-- A text cut in two at an operator. -/
structure Cut where
  operation : Operation
  left : Text
  right : Text

/-- The operator at the beginning of a text, if an edge follows it. -/
def operatorAt? (operators : List Operator) (t : Text) : Option (Operator × Text) :=
  operators.findSome? fun o =>
    (Text.after? o.sign t).bind fun rest => if rest.head?.any isEdge then some (o, rest) else none

/-- The last cut of the characters ahead at one of the operators.  `before` holds, last first, the characters in
front of them, and `ds` their depths. -/
def lastCut? (operators : List Operator) : (before ahead : Text) → (ds : List Nat) → Option Cut
  | before, c :: ahead, d :: ds =>
    match lastCut? operators (c :: before) ahead ds with
    | some cut => some cut
    | none =>
      if d = 0 && before.head?.any isEdge then
        (operatorAt? operators (c :: ahead)).map fun found =>
          ⟨found.1.operation, Text.trim before.reverse, found.2.trim⟩
      else none
  | _, _, _ => none

/-- The two sides of a sum, a difference, a product, a quotient or a remainder. -/
def split? (t : Text) : Option Cut :=
  (lastCut? sums [] t t.depths).or (lastCut? products [] t t.depths)

end BlockScript.Arithmetic
