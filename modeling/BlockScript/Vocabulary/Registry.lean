import BlockScript.Fault
import BlockScript.Vocabulary.Events
import BlockScript.Vocabulary.Motion
import BlockScript.Vocabulary.Looks
import BlockScript.Vocabulary.Sound
import BlockScript.Vocabulary.Control
import BlockScript.Vocabulary.Sensing
import BlockScript.Vocabulary.Operators
import BlockScript.Vocabulary.Variables

/-!
# The vocabulary

All operations, in the order in which they are tried, and the search for the one that reads a text.
-/

namespace BlockScript.Vocabulary

/-- All operations.  The first one that reads a text wins, so longer forms stand in front of shorter ones with the
same beginning. -/
def all : List Operation :=
  events ++ motion ++ looks ++ sound ++ control ++ sensing ++ operators ++ data

/-- The operations of the given shapes. -/
def ofShapes (shapes : List Shape) : List Operation :=
  all.filter fun op => shapes.contains op.shape

/-- The operation of an opcode. -/
def get? (opcode : String) : Option Operation :=
  all.find? (·.opcode == opcode)

/-- The operation of an opcode, which must be known. -/
def get (opcode : String) : Except Fault Operation :=
  (get? opcode).elim (.error (.unknownOpcode opcode)) .ok

/-- The first of some operations that reads a text, with the texts of its slots. -/
def firstMatch? (operations : List Operation) (t : Text) : Option (Operation × Bindings) :=
  operations.findSome? fun op => (op.match? t).map fun values => (op, values)

/-- The first operation of one of the given shapes that reads a text; no shapes mean all shapes. -/
def lookup (shapes : List Shape) (t : Text) : Option (Operation × Bindings) :=
  firstMatch? (if shapes = [] then all else ofShapes shapes) t

end BlockScript.Vocabulary
