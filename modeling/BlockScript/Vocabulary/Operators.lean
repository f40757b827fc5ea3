import BlockScript.Vocabulary.Operation

/-!
# Operators

Arithmetic, texts, functions, comparisons and the logical connectives.
-/

namespace BlockScript

/-- The mathematical functions. -/
def mathFunctions : List String :=
  ["abs", "floor", "ceiling", "sqrt", "sin", "cos", "tan", "asin", "acos",
    "atan", "ln", "log", "e ^", "10 ^"]

namespace Operation

/-- The sum. -/
def add : Operation :=
  .of "operator_add" .operators .reporter "(NUM1) + (NUM2)" [⟨"NUM1", .number⟩, ⟨"NUM2", .number⟩]

/-- The difference. -/
def subtract : Operation :=
  .of "operator_subtract" .operators .reporter "(NUM1) - (NUM2)" [⟨"NUM1", .number⟩, ⟨"NUM2", .number⟩]

/-- The product. -/
def multiply : Operation :=
  .of "operator_multiply" .operators .reporter "(NUM1) * (NUM2)" [⟨"NUM1", .number⟩, ⟨"NUM2", .number⟩]

/-- The quotient. -/
def divide : Operation :=
  .of "operator_divide" .operators .reporter "(NUM1) / (NUM2)" [⟨"NUM1", .number⟩, ⟨"NUM2", .number⟩]

/-- The remainder. -/
def modulo : Operation :=
  .of "operator_mod" .operators .reporter "(NUM1) mod (NUM2)" [⟨"NUM1", .number⟩, ⟨"NUM2", .number⟩]

/-- A number between two bounds. -/
def random : Operation :=
  .of "operator_random" .operators .reporter "pick random (FROM) to (TO)"
    [⟨"FROM", .number⟩, ⟨"TO", .number⟩]

/-- Two texts joined. -/
def join : Operation :=
  ⟨"operator_join", .operators, .reporter, "join (STRING1) (STRING2)",
    [⟨"STRING1", .text⟩, ⟨"STRING2", .text⟩], ["join (STRING1) and (STRING2)"]⟩

/-- A letter of a text. -/
def letterOf : Operation :=
  .of "operator_letter_of" .operators .reporter "letter (LETTER) of (STRING)"
    [⟨"LETTER", .wholeNumber⟩, ⟨"STRING", .text⟩]

/-- A mathematical function of a number. -/
def mathFunction : Operation :=
  .of "operator_mathop" .operators .reporter "[OPERATOR v] of (NUM)"
    [⟨"OPERATOR", .choice mathFunctions⟩, ⟨"NUM", .number⟩]

/-- Whether the first value is greater. -/
def greater : Operation :=
  .of "operator_gt" .operators .boolean "(OPERAND1) > (OPERAND2)"
    [⟨"OPERAND1", .value⟩, ⟨"OPERAND2", .value⟩]

/-- Whether the first value is less. -/
def less : Operation :=
  .of "operator_lt" .operators .boolean "(OPERAND1) < (OPERAND2)"
    [⟨"OPERAND1", .value⟩, ⟨"OPERAND2", .value⟩]

/-- Whether two values are equal. -/
def equals : Operation :=
  .of "operator_equals" .operators .boolean "(OPERAND1) = (OPERAND2)"
    [⟨"OPERAND1", .value⟩, ⟨"OPERAND2", .value⟩]

/-- Whether both conditions hold. -/
def both : Operation :=
  .of "operator_and" .operators .boolean "<OPERAND1> and <OPERAND2>"
    [⟨"OPERAND1", .boolean⟩, ⟨"OPERAND2", .boolean⟩]

/-- Whether one of two conditions holds. -/
def either : Operation :=
  .of "operator_or" .operators .boolean "<OPERAND1> or <OPERAND2>"
    [⟨"OPERAND1", .boolean⟩, ⟨"OPERAND2", .boolean⟩]

/-- Whether a condition does not hold. -/
def negation : Operation :=
  .of "operator_not" .operators .boolean "not <OPERAND>" [⟨"OPERAND", .boolean⟩]

/-- Whether a text contains another one. -/
def contains : Operation :=
  .of "operator_contains" .operators .boolean "(STRING1) contains (STRING2)?"
    [⟨"STRING1", .text⟩, ⟨"STRING2", .text⟩]

end Operation

namespace Vocabulary

/-- These operations, in the order in which they are tried. -/
def operators : List Operation :=
  [.add, .subtract, .multiply, .divide, .modulo, .random, .join, .letterOf,
    .of "operator_length" .operators .reporter "length of (STRING)" [⟨"STRING", .text⟩],
    .of "operator_round" .operators .reporter "round (NUM)" [⟨"NUM", .number⟩],
    .mathFunction,
    .of "sensing_of" .sensing .reporter "[PROPERTY v] of (OBJECT v)"
      [⟨"PROPERTY", .field⟩, ⟨"OBJECT", .menu .ofObject⟩],
    .greater, .less, .equals, .both, .either, .negation, .contains]

end Vocabulary

end BlockScript
