import BlockScript.Keyed

/-!
# Blocks

A block carries out one operation.  Its inputs hold nested blocks, references to known names or raw texts, its
fields hold plain texts.  Blocks refer to each other by id only.
-/

namespace BlockScript

/-- The id of a block. -/
abbrev BlockId := String

/-- The outline of a block, which decides where it can stand. -/
inductive Shape where
  | command
  | reporter
  | boolean
  | hat
  | container
  deriving DecidableEq, Repr

namespace Shape

/-- All shapes. -/
def all : List Shape :=
  [command, reporter, boolean, hat, container]

/-- The word for a shape. -/
def name : Shape → String
  | command => "command"
  | reporter => "reporter"
  | boolean => "boolean"
  | hat => "hat"
  | container => "container"

/-- The shape that a word stands for. -/
def ofName? (word : String) : Option Shape :=
  all.find? (·.name == word)

end Shape

/-- How the editor stores the block that an input holds. -/
inductive InputKind where
  | number
  | positiveNumber
  | wholeNumber
  | angle
  | text
  | color
  | menu
  | boolean
  | reporter
  | substack
  deriving DecidableEq, Repr

namespace InputKind

/-- All kinds of inputs. -/
def all : List InputKind :=
  [number, positiveNumber, wholeNumber, angle, text, color, menu, boolean, reporter, substack]

/-- The word for a kind of input. -/
def name : InputKind → String
  | number => "number"
  | positiveNumber => "positive_number"
  | wholeNumber => "whole_number"
  | angle => "angle"
  | text => "text"
  | color => "color"
  | menu => "menu"
  | boolean => "boolean"
  | reporter => "reporter"
  | substack => "substack"

/-- The kind of input that a word stands for. -/
def ofName? (word : String) : Option InputKind :=
  all.find? (·.name == word)

end InputKind

/-- What a known name stands for. -/
inductive NameKind where
  | globalVariable
  | localVariable
  | sprite
  | builtin
  deriving DecidableEq, Repr

namespace NameKind

/-- All kinds of names. -/
def all : List NameKind :=
  [globalVariable, localVariable, sprite, builtin]

/-- The word for a kind of name. -/
def name : NameKind → String
  | globalVariable => "global"
  | localVariable => "local"
  | sprite => "sprite"
  | builtin => "builtin"

/-- The kind of name that a word stands for. -/
def ofName? (word : String) : Option NameKind :=
  all.find? (·.name == word)

end NameKind

/-- What an input slot of a block holds. -/
inductive Input where
  /-- A nested block. -/
  | block (slot : String) (kind : InputKind) (target : BlockId)
  /-- A known name, by its id. -/
  | reference (slot : String) (id : String) (value : String) (kind : NameKind)
  /-- A text that stays as it is. -/
  | raw (slot : String) (value : String)
  deriving DecidableEq, Repr

namespace Input

/-- The slot that holds the input. -/
def slot : Input → String
  | block slot _ _ => slot
  | reference slot _ _ _ => slot
  | raw slot _ => slot

/-- The nested block of the input. -/
def target? : Input → Option BlockId
  | block _ _ target => some target
  | _ => none

end Input

/-- What a field slot of a block holds; the id is that of the variable it names. -/
structure Field where
  slot : String
  value : String
  id : Option String
  deriving DecidableEq, Repr

/-- A block of a script. -/
structure Block where
  id : BlockId
  opcode : String
  shape : Shape
  inputs : List Input
  fields : List Field
  parent : Option BlockId
  next : Option BlockId
  shadow : Bool
  /-- A shadow stands in for a value, so it is a reporter. -/
  reporter_of_shadow : shadow = true → shape = .reporter := by simp
  deriving DecidableEq, Repr

namespace Block

/-- The blocks at the top of a script are the hats. -/
def isTop (b : Block) : Bool :=
  b.shape = .hat

/-- The blocks that the inputs hold, in the order of the inputs. -/
def nested (b : Block) : List BlockId :=
  b.inputs.filterMap Input.target?

/-- The block with one input replaced or added. -/
def putInput (b : Block) (input : Input) : Block :=
  { b with inputs := Keyed.put Input.slot input b.inputs }

end Block

/-- The blocks of a script by their keys, in the order in which the keys came in. -/
abbrev Arena := List (BlockId × Block)

namespace Arena

/-- The block under a key. -/
def get? (arena : Arena) (id : BlockId) : Option Block :=
  (Keyed.get? Prod.fst id arena).map Prod.snd

/-- Stores a block under its id. -/
def store (arena : Arena) (b : Block) : Arena :=
  Keyed.put Prod.fst (b.id, b) arena

/-- Changes the block under a key, if there is one. -/
def modify (arena : Arena) (id : BlockId) (f : Block → Block) : Arena :=
  arena.map fun entry => if entry.1 = id then (entry.1, f entry.2) else entry

/-- The blocks in order. -/
def blocks (arena : Arena) : List Block :=
  arena.map Prod.snd

/-- The keys in order. -/
def keys (arena : Arena) : List BlockId :=
  arena.map Prod.fst

theorem get?_store_self (arena : Arena) (b : Block) : (arena.store b).get? b.id = some b := by
  unfold get? store
  rw [show b.id = Prod.fst (b.id, b) from rfl, Keyed.get?_put_self]
  rfl

theorem get?_store_of_ne {arena : Arena} {b : Block} {id : BlockId} (h : id ≠ b.id) :
    (arena.store b).get? id = arena.get? id := by
  unfold get? store
  rw [Keyed.get?_put_of_ne Prod.fst h]

/-- Changing a block changes no key. -/
theorem keys_modify (arena : Arena) (id : BlockId) (f : Block → Block) :
    (arena.modify id f).keys = arena.keys := by
  unfold keys modify
  rw [List.map_map]
  apply List.map_congr_left
  intro entry _
  show (if entry.1 = id then (entry.1, f entry.2) else entry).1 = entry.1
  split <;> rfl

end Arena

end BlockScript
