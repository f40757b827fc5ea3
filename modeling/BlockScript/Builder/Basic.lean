import BlockScript.Event
import BlockScript.Graph.Script
import BlockScript.Vocabulary.Registry

/-!
# The state of building

A builder holds the blocks of the script that is being built, and the bodies of containers that are still open, the
innermost first.  Ids come from a source, and none may come twice into one builder.
-/

namespace BlockScript

/-- Where ids come from: the id that is drawn as number `n`, from zero on. -/
abbrev IdSource := Nat → BlockId

namespace IdSource

/-- The ids `stem_1`, `stem_2`, … -/
def sequential (stem : String) : IdSource :=
  fun n => s!"{stem}_{n + 1}"

/-- The ids of a list in turn, again and again. -/
def cycle (ids : List BlockId) : IdSource :=
  fun n => ids.getD (n % ids.length) ""

/-- The ids that are drawn unless others are asked for. -/
def default : IdSource :=
  sequential "block"

end IdSource

/-- A body that is still open: its container, the line that opened it, the slot that will hold it, and the blocks
in it. -/
structure OpenBody where
  container : BlockId
  line : Int
  slot : String
  children : List BlockId
  deriving DecidableEq, Repr

/-- The state of building a script. -/
structure Builder where
  /-- How many ids have been drawn, for this script and those before it. -/
  drawn : Nat
  /-- The ids drawn for this script, in order. -/
  issued : List BlockId
  arena : Arena
  /-- The open bodies, the innermost first. -/
  openBodies : List OpenBody
  top : Option BlockId
  events : Array Event

namespace Builder

/-- A builder without blocks. -/
def empty (drawn : Nat) (events : Array Event) : Builder :=
  ⟨drawn, [], [], [], none, events⟩

/-- The ids of the blocks that some input holds. -/
def held (b : Builder) : List BlockId :=
  b.arena.blocks.flatMap Block.nested

/-- Whether a block stands alone: no input holds it, it is neither a hat nor a shadow, and it has no parent. -/
def isLoose (held : List BlockId) (block : Block) : Bool :=
  !held.contains block.id && !block.shadow && !block.isTop && block.parent.isNone

/-- The ids of the blocks that stand alone, in the order of the arena. -/
def loose (b : Builder) : List BlockId :=
  (b.arena.blocks.filter (isLoose b.held)).map Block.id

/-- The blocks that stand alone, in the order in which their ids were drawn.  Each id must have been drawn. -/
def sequence (b : Builder) : Except Fault (List BlockId) :=
  let loose := b.loose
  match loose.find? (!b.issued.contains ·) with
  | some id => .error (.missingKey id)
  | none => .ok (b.issued.filter loose.contains)

end Builder

namespace Arena

/-- Makes a block the parent of another one. -/
def setParent (child parent : BlockId) (arena : Arena) : Arena :=
  arena.modify child fun block => { block with parent := some parent }

/-- Makes a block follow another one. -/
def setNext (id next : BlockId) (arena : Arena) : Arena :=
  arena.modify id fun block => { block with next := some next }

/-- Makes the blocks of a list follow each other. -/
def link : List BlockId → Arena → Arena
  | a :: b :: rest, arena => link (b :: rest) ((arena.setNext a b).setParent b a)
  | _, arena => arena

end Arena

end BlockScript
