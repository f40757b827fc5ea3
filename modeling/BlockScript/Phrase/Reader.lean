import BlockScript.Line.Kind
import BlockScript.Phrase.Arithmetic
import BlockScript.Phrase.Term
import BlockScript.Text.DecimalDigit
import BlockScript.Vocabulary.Registry

/-!
# Reading phrases

A value is read as the first of these that it is: a known name; an entry of a menu, if its slot offers one; a
condition between angle brackets; arithmetic or a reporter, unless it is quoted; and else a literal.  A condition
is read as a disjunction, a conjunction, a comparison or a predicate.

Phrases nest.  The functions `Reader.value` and `Reader.condition` recurse on the number of levels that are left;
when none is left, the phrase is nested too deep.
-/

namespace BlockScript

namespace Text

/-- The text without the mark of a dropdown. -/
def dropMarker (t : Text) : Text :=
  if [' ', 'v'].isSuffixOf t then trimRight (t.take (t.length - 2)) else t

/-- The text between two quotes `quote` that hold no further one. -/
def unquotedFrom? (quote : Char) (t : Text) : Option Text :=
  if [quote].isSuffixOf t && !t.dropLast.contains quote then some t.dropLast else none

/-- The text between the quotes of a quoted text. -/
def unquoted? : Text → Option Text
  | '"' :: t => unquotedFrom? '"' t
  | '\'' :: t => unquotedFrom? '\'' t
  | _ => none

/-- Whether a text is one or more digits. -/
def isDigits (t : Text) : Bool :=
  t != [] && t.all isDecimalDigit

/-- Whether a text is a number in digits, with a minus sign and a fraction if it has them. -/
def isNumber (t : Text) : Bool :=
  let digits := (after? ['-'] t).getD t
  let whole := digits.takeWhile isDecimalDigit
  match digits.dropWhile isDecimalDigit with
  | [] => isDigits whole
  | c :: fraction => isDigits whole && c == '.' && isDigits fraction

end Text

/-- Forms of reporters that are looser than their patterns. -/
def looseReporters : List (Operation × Form) :=
  [(.join, Form.exactly "join".toList ++ [.gap false, .oneOf ['('], .shortest "STRING1", .gap false, .oneOf [','],
      .gap false, .longest "STRING2", .oneOf [')']]),
    (.random, Form.exactly "pick".toList ++ [.gap true] ++ Form.exactly "random".toList ++
      [.gap true, .shortest "FROM", .gap true] ++ Form.exactly "to".toList ++ [.gap true, .longest "TO"]),
    (.letterOf, Form.exactly "letter".toList ++ [.gap true, .shortest "LETTER", .gap true] ++
      Form.exactly "of".toList ++ [.gap true, .longest "STRING"]),
    (.mathFunction, [.word "OPERATOR" (Form.longestFirst (mathFunctions.map String.toList)), .gap true] ++
      Form.exactly "of".toList ++ [.gap true, .longest "NUM"])]

/-- Forms of a negation that are looser than its pattern. -/
def looseNegations : List Form :=
  [Form.exactly "not".toList ++ [.gap true, .longest "OPERAND"],
    Form.exactly "not".toList ++ [.ahead ['<', '(', '['], .longest "OPERAND"]]

/-- The connectives, from the loosest one on. -/
def connectives : List (Text × Operation) :=
  [("or".toList, .either), ("and".toList, .both)]

/-- The comparisons, in the order in which they are tried. -/
def comparisons : List (Text × Operation) :=
  [(['='], .equals), (['>'], .greater), (['<'], .less)]

/-- The predicates, in the order in which they are tried. -/
def predicates : List Operation :=
  [.keyPressed, .touchingColor, .touchingObject, .negation, .contains, .colorTouchingColor, .mouseDown]

/-- The texts of the slots of a text that reads as a predicate. -/
def predicateMatch? (op : Operation) (t : Text) : Option Bindings :=
  (op.match? t).or (if op = .negation then looseNegations.findSome? (·.match? t) else none)

/-- The first of some words at which a text splits, with its operation and the two sides. -/
def splitAtFirst? (words : List (Text × Operation)) (t : Text) : Option (Operation × Text × Text) :=
  words.findSome? fun w => (Text.splitAtWord w.1 t).map fun sides => (w.2, sides)

/-- A number as an operand of a comparison is kept as a number, anything else as a value. -/
def operandKind (t : Text) : SlotKind :=
  if t.bareCondition.isNumber then .number else .value

/-- What phrases are read with: the known names, and the limit on their nesting. -/
structure Reader where
  names : NameTable
  limit : Int

namespace Reader

/-- The limit on nesting unless another one is asked for. -/
def defaultLimit : Int :=
  32

/-- The number of levels that phrases at the given depth may take, themselves included. -/
def levelsAt (r : Reader) (depth : Int) : Nat :=
  (r.limit + 1 - depth).toNat

/-- The value of a field. -/
def fieldValue (r : Reader) (kind : SlotKind) (t : Text) : FieldValue :=
  let text := t.bare.dropMarker
  if kind = .variableName then .variableName text (r.names.lookup (String.ofList text))
  else .plain (String.ofList text)

/-- The arguments that the texts of some slots are, given what values and conditions mean one level below.  Slots
without a text are left out. -/
def arguments (r : Reader) (value : SlotKind → Text → Argument) (condition : Text → Term) (values : Bindings) :
    List Slot → Arguments
  | [] => .done
  | slot :: rest =>
    match values.lookup slot.name with
    | none => arguments r value condition values rest
    | some t =>
      let others := arguments r value condition values rest
      if slot.kind.isField then .field slot.name (r.fieldValue slot.kind t) others
      else if slot.kind = .boolean then .input slot.name (.nested .boolean (condition t)) others
      else if slot.kind = .raw then .input slot.name (.raw (String.ofList t.bare)) others
      else .input slot.name (value slot.kind t) others

/-- An operation with the texts of its slots, given what values and conditions mean one level below. -/
def applied (r : Reader) (value : SlotKind → Text → Argument) (condition : Text → Term) (op : Operation)
    (values : Bindings) : Term :=
  .apply op (r.arguments value condition values op.slots)

/-- The reporter that a text reads as, with the texts of its slots. -/
def reporter? (t : Text) : Option (Operation × Bindings) :=
  match Arithmetic.split? t with
  | some cut => some (cut.operation, [("NUM1", cut.left), ("NUM2", cut.right)])
  | none =>
    match Vocabulary.lookup [.reporter] t with
    | some found => some found
    | none => looseReporters.findSome? fun loose => (loose.2.match? t).map fun values => (loose.1, values)

/-- The term of a text that reads as a reporter, given what values and conditions mean one level below. -/
def reporterTerm? (r : Reader) (value : SlotKind → Text → Argument) (condition : Text → Term) (t : Text) :
    Option Term :=
  (reporter? t).map fun found => r.applied value condition found.1 found.2

/-- What the text of a slot means, given what values and conditions mean one level below. -/
def valueStep (r : Reader) (value : SlotKind → Text → Argument) (condition : Text → Term) (kind : SlotKind)
    (token : Text) : Argument :=
  match kind with
  | .menu menu =>
    let text := String.ofList token.bare.dropMarker
    match r.names.lookup text with
    | some entry => .reference entry
    | none => .shadow menu.shadow (menu.stored text)
  | _ =>
    let text := token.bare
    match r.names.lookup (String.ofList text) with
    | some entry => .reference entry
    | none =>
      if text.isWrapped [.angle] then .nested .boolean (condition text)
      else match text.unquoted? with
        | some quoted => .shadow kind.literalShadow (String.ofList quoted)
        | none =>
          match r.reporterTerm? value condition text with
          | some term => .nested .reporter term
          | none => .shadow kind.literalShadow (String.ofList text)

/-- The predicate that a condition reads as, with the texts of its slots. -/
def predicate? (t : Text) : Option (Operation × Bindings) :=
  predicates.findSome? fun op => (predicateMatch? op t).map fun values => (op, values)

/-- What a condition means, given what values and conditions mean one level below. -/
def conditionStep (r : Reader) (value : SlotKind → Text → Argument) (condition : Text → Term) (token : Text) :
    Term :=
  let t := token.bareCondition
  if t = [] then .unreadable .emptyCondition
  else match splitAtFirst? connectives t with
    | some (op, left, right) =>
      .apply op (.input "OPERAND1" (.nested .boolean (condition left))
        (.input "OPERAND2" (.nested .boolean (condition right)) .done))
    | none =>
      match splitAtFirst? comparisons t with
      | some (op, left, right) =>
        .apply op (.input "OPERAND1" (value (operandKind left) left)
          (.input "OPERAND2" (value (operandKind right) right) .done))
      | none =>
        match predicate? t with
        | some (op, values) => .noted (.condition t op.opcode) (r.applied value condition op values)
        | none => .unreadable (.unreadableCondition t)

mutual

/-- What the text of a slot of some kind means, when the given number of levels is left. -/
def value (r : Reader) : (levels : Nat) → SlotKind → Text → Argument
  | 0, _, _ => .unreadable (.nestingTooDeep r.limit)
  | levels + 1, kind, token => r.valueStep (value r levels) (condition r levels) kind token

/-- What a condition means, when the given number of levels is left. -/
def condition (r : Reader) : (levels : Nat) → Text → Term
  | 0, _ => .unreadable (.nestingTooDeep r.limit)
  | levels + 1, token => r.conditionStep (value r levels) (condition r levels) token

end

/-- The value of a slot at some depth. -/
def valueAt (r : Reader) (depth : Int) (kind : SlotKind) (t : Text) : Argument :=
  r.value (r.levelsAt depth) kind t

/-- The condition of a text at some depth. -/
def conditionAt (r : Reader) (depth : Int) (t : Text) : Term :=
  r.condition (r.levelsAt depth) t

/-- The reporter of a text at some depth, if it reads as one. -/
def reporterAt? (r : Reader) (depth : Int) (t : Text) : Option Term :=
  r.reporterTerm? (r.valueAt (depth + 1)) (r.conditionAt (depth + 1)) t

/-- The arguments of an operation at some depth. -/
def argumentsAt (r : Reader) (depth : Int) (op : Operation) (values : Bindings) : Arguments :=
  r.arguments (r.valueAt (depth + 1)) (r.conditionAt (depth + 1)) values op.slots

/-- An operation at some depth with the texts of its slots. -/
def termAt (r : Reader) (depth : Int) (op : Operation) (values : Bindings) : Term :=
  .apply op (r.argumentsAt depth op values)

end Reader

end BlockScript
