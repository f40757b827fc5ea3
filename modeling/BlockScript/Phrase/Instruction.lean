import BlockScript.Phrase.Reader

/-!
# Instructions

An instruction is what a line says.  It depends on nothing but the line and the reader; a line that cannot be read
says a term that is the fault of reading it.
-/

namespace BlockScript

/-- What a line says. -/
inductive Instruction where
  /-- Begins a script with a hat. -/
  | trigger (hat : Term)
  /-- Adds a block. -/
  | add (term : Term)
  /-- Adds a container and opens its body. -/
  | enter (container : Term)
  /-- Opens the second body of an `if`. -/
  | otherwise
  /-- Closes a body. -/
  | close
  /-- Stops at once. -/
  | refuse (fault : Fault)

namespace Reader

/-- The term of a text that reads as an operation of the given shape, or else the fault. -/
def whole (r : Reader) (shape : Shape) (t : Text) (fault : Fault) : Term :=
  match Vocabulary.lookup [shape] t with
  | some (op, values) => r.termAt 0 op values
  | none => .unreadable fault

/-- A container, one of whose slots takes the argument of a line; a line without an argument gives it no text. -/
def container (r : Reader) (op : Operation) (slot : String) (line : Line) : Term :=
  r.termAt 0 op [(slot, line.argument.getD [])]

/-- What a line says. -/
def instruction (r : Reader) (line : Line) : Instruction :=
  match line.kind with
  | .trigger => .trigger (r.whole .hat line.text (.unknownTrigger line.text))
  | .forever => .enter (r.termAt 0 .forever [])
  | .repeatTimes => .enter (r.container .repeatTimes "TIMES" line)
  | .repeatUntil => .enter (r.container .repeatUntil "CONDITION" line)
  | .ifThen => .enter (r.container .ifThen "CONDITION" line)
  | .otherwise => .otherwise
  | .close => .close
  | .statement => .add (r.whole .command line.text (.unrecognizedLine line.text))
  | .finish => .refuse (.missingKey line.kind.name)
  | .other name => .refuse (.missingKey name)

end Reader

end BlockScript
