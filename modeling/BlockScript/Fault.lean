import BlockScript.Diagnostic
import BlockScript.Graph.Block

/-!
# Faults of compilation

The causes for which a source, or a request to the block builder, is refused, and the words for them.
-/

namespace BlockScript

/-- Why compilation stops. -/
inductive Fault where
  /-- A line that no operation reads. -/
  | unrecognizedLine (line : Text)
  /-- A line in front of the first script. -/
  | lineBeforeTrigger (line : Text)
  /-- A `when` line that no hat reads. -/
  | unknownTrigger (line : Text)
  | endWithoutContainer
  | elseWithoutIf
  /-- An `else` in a container that is no open `if`. -/
  | elseInside (opcode : String)
  /-- A container that is still open at the end of its script. -/
  | neverClosed (opcode : String) (line : Int)
  | emptyCondition
  | unreadableCondition (text : Text)
  | nestingTooDeep (limit : Int)
  | missingSlots (opcode : String) (slots : List String)
  | duplicateId (id : BlockId)
  | noHat
  | hatNotTop (opcode : String)
  | topNotHat (opcode : String)
  | shadowNotReporter (opcode : String)
  | unknownOpcode (opcode : String)
  | unknownSlot (opcode slot : String)
  /-- An input that was asked for a block and holds something else. -/
  | noBlockIn (slot : String) (id : BlockId)
  /-- A key without an entry. -/
  | missingKey (key : String)
  /-- The lines end without the mark of their end. -/
  | outOfLines
  /-- A sequence of blocks that runs in a circle. -/
  | endlessChain (id : BlockId)
  deriving DecidableEq, Repr

namespace Fault

/-- The kind of a fault. -/
def kind : Fault → FaultKind
  | unrecognizedLine _ => .unrecognizedLine
  | lineBeforeTrigger _ => .unrecognizedLine
  | unknownTrigger _ => .unrecognizedTrigger
  | endWithoutContainer => .unbalancedContainer
  | elseWithoutIf => .unbalancedContainer
  | elseInside _ => .unbalancedContainer
  | neverClosed _ _ => .unbalancedContainer
  | emptyCondition => .malformedCondition
  | unreadableCondition _ => .malformedCondition
  | nestingTooDeep _ => .nestingTooDeep
  | missingSlots _ _ => .incompleteBlock
  | duplicateId _ => .wrongValue
  | noHat => .wrongValue
  | hatNotTop _ => .wrongValue
  | topNotHat _ => .wrongValue
  | shadowNotReporter _ => .wrongValue
  | unknownOpcode _ => .missingKey
  | unknownSlot _ _ => .missingKey
  | noBlockIn _ _ => .missingKey
  | missingKey _ => .missingKey
  | outOfLines => .outOfRange
  | endlessChain _ => .wrongValue

/-- The words for a fault. -/
def reason : Fault → String
  | unrecognizedLine line => s!"Unrecognized line '{String.ofList line}'."
  | lineBeforeTrigger line => s!"'{String.ofList line}' appears before any 'when' trigger."
  | unknownTrigger line => s!"Unknown trigger '{String.ofList line}'."
  | endWithoutContainer => "'end' without an open container."
  | elseWithoutIf => "'else' without an open 'if'."
  | elseInside opcode => s!"'else' inside '{opcode}' instead of an open 'if'."
  | neverClosed opcode line => s!"'{opcode}' opened at line {line} is never closed with 'end'."
  | emptyCondition => "Condition is empty."
  | unreadableCondition text => s!"Cannot parse condition '{String.ofList text}'."
  | nestingTooDeep limit => s!"Expression nesting exceeds the limit of {limit} levels."
  | missingSlots opcode slots => s!"Block '{opcode}' is missing slot(s): " ++ ", ".intercalate slots ++ "."
  | duplicateId id => s!"Id source produced duplicate id '{id}'."
  | noHat => "Script has no hat block."
  | hatNotTop opcode => s!"Hat block '{opcode}' must be top level."
  | topNotHat opcode => s!"Only hat blocks can be top level, got '{opcode}'."
  | shadowNotReporter opcode => s!"Shadow block '{opcode}' must be a reporter."
  | unknownOpcode opcode => s!"Unknown opcode '{opcode}'."
  | unknownSlot opcode slot => s!"Opcode '{opcode}' has no slot '{slot}'."
  | noBlockIn slot id => s!"Input '{slot}' of block '{id}' holds no block."
  | missingKey key => key
  | outOfLines => "list index out of range"
  | endlessChain id => s!"The sequence from block '{id}' never ends."

/-- The line that a fault names itself. -/
def ownLine : Fault → Option Int
  | neverClosed _ line => some line
  | _ => none

/-- The fault as it is reported while a line is being processed. -/
def diagnose (context : Option LineContext) (fault : Fault) : Diagnostic :=
  Diagnostic.locate fault.kind fault.reason context fault.ownLine none

end Fault

/-- A fault with the line that was being processed when it arose. -/
structure LocatedFault where
  fault : Fault
  context : Option LineContext
  deriving DecidableEq, Repr

namespace LocatedFault

/-- The fault as it is reported. -/
def diagnose (f : LocatedFault) : Diagnostic :=
  f.fault.diagnose f.context

end LocatedFault

end BlockScript
