import BlockScript.Vocabulary.Pattern

/-!
# Operations

An operation pairs an opcode with its pattern, its slots and the shape of its blocks.  A text reads as an
operation if it shows the form of its pattern or of one of its aliases; the first form that it shows gives the
texts of the slots.
-/

namespace BlockScript

/-- The categories of operations. -/
inductive Category where
  | motion
  | looks
  | sound
  | event
  | control
  | sensing
  | operators
  | data
  deriving DecidableEq, Repr

namespace Category

/-- The word for a category. -/
def name : Category → String
  | motion => "motion"
  | looks => "looks"
  | sound => "sound"
  | event => "event"
  | control => "control"
  | sensing => "sensing"
  | operators => "operators"
  | data => "variables"

end Category

/-- An operation that a block can carry out. -/
structure Operation where
  opcode : String
  category : Category
  shape : Shape
  pattern : String
  slots : List Slot
  aliases : List String
  deriving DecidableEq, Repr

namespace Operation

/-- The forms of the pattern and the aliases, in order. -/
def formsOf (slots : List Slot) (patterns : List String) : Except PatternFault (List Form) :=
  patterns.mapM fun pattern => Pattern.form slots pattern.toList

/-- The forms of an operation; an operation with a faulty pattern has none. -/
def forms (op : Operation) : List Form :=
  (formsOf op.slots (op.pattern :: op.aliases)).toOption.getD []

/-- The texts of the slots of a text that reads as the operation. -/
def match? (op : Operation) (t : Text) : Option Bindings :=
  op.forms.findSome? (·.match? t)

/-- The slots that hold inputs. -/
def inputSlots (op : Operation) : List Slot :=
  op.slots.filter (!·.kind.isField)

/-- The slots that hold fields. -/
def fieldSlots (op : Operation) : List Slot :=
  op.slots.filter (·.kind.isField)

/-- The slot of a name. -/
def slot? (op : Operation) (name : String) : Option Slot :=
  op.slots.find? (·.name == name)

/-- An operation without aliases. -/
def of (opcode : String) (category : Category) (shape : Shape) (pattern : String) (slots : List Slot) :
    Operation :=
  ⟨opcode, category, shape, pattern, slots, []⟩

end Operation

end BlockScript
