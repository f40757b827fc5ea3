import BlockScript.Event
import BlockScript.Fault
import BlockScript.Names.Table
import BlockScript.Vocabulary.Operation

/-!
# Terms

A term is what a phrase of the source means: an operation with its arguments.  A part of a phrase that cannot be
read stands in the term as the fault that it is, so that everything in front of it keeps its meaning.
-/

namespace BlockScript

/-- What a field of a term holds. -/
inductive FieldValue where
  | plain (value : String)
  /-- A variable by its name, with its entry if it is known. -/
  | variableName (name : Text) (entry : Option KnownName)
  deriving DecidableEq, Repr

mutual

/-- An operation with its arguments. -/
inductive Term where
  | apply (op : Operation) (arguments : Arguments)
  /-- A term whose reading is reported. -/
  | noted (event : Event) (term : Term)
  | unreadable (fault : Fault)

/-- What an input of a term holds. -/
inductive Argument where
  | reference (entry : KnownName)
  | shadow (shadow : Shadow) (value : String)
  | nested (kind : InputKind) (term : Term)
  | raw (value : String)
  | unreadable (fault : Fault)

/-- The arguments of a term by slots, in the order of the slots. -/
inductive Arguments where
  | done
  | input (slot : String) (value : Argument) (rest : Arguments)
  | field (slot : String) (value : FieldValue) (rest : Arguments)

end

end BlockScript
