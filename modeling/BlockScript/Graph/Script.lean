import BlockScript.Fault

/-!
# Scripts

A script is the blocks under one hat.  Blocks that follow each other are linked by `next`; a container holds the
first block of a body in the input of a slot.
-/

namespace BlockScript

/-- A script: its blocks and the id of the one on top. -/
structure Script where
  top : BlockId
  blocks : Arena
  deriving DecidableEq, Repr

namespace Script

/-- The slot of the first body of a container. -/
def firstBody : String :=
  "SUBSTACK"

/-- The slot of the second body of a container. -/
def secondBody : String :=
  "SUBSTACK2"

/-- The block under a key, which must be there. -/
def block (s : Script) (id : BlockId) : Except Fault Block :=
  (s.blocks.get? id).elim (.error (.missingKey id)) .ok

/-- The first `steps` blocks that follow each other from `start`, if they are all. -/
def chainWithin (s : Script) : (steps : Nat) → (start : Option BlockId) → Except Fault (List Block)
  | _, none => .ok []
  | 0, some id => .error (.endlessChain id)
  | steps + 1, some id => do
    let b ← s.block id
    let rest ← s.chainWithin steps b.next
    return b :: rest

/-- The blocks that follow each other from `start`.  A sequence of more blocks than the script has runs in a
circle. -/
def chain (s : Script) (start : Option BlockId) : Except Fault (List Block) :=
  s.chainWithin (s.blocks.length + 1) start

/-- The block on top. -/
def topBlock (s : Script) : Except Fault Block :=
  s.block s.top

/-- The blocks below the one on top. -/
def body (s : Script) : Except Fault (List Block) := do
  s.chain (← s.topBlock).next

/-- The blocks in the body of a container, none if the slot holds no block. -/
def substack (s : Script) (id : BlockId) (slot : String) : Except Fault (List Block) := do
  match Keyed.get? Input.slot slot (← s.block id).inputs with
  | some (.block _ _ target) => s.chain (some target)
  | _ => return []

/-- The block that an input holds. -/
def inputBlock (s : Script) (id : BlockId) (slot : String) : Except Fault Block := do
  match Keyed.get? Input.slot slot (← s.block id).inputs with
  | some (.block _ _ target) => s.block target
  | some _ => throw (.noBlockIn slot id)
  | none => throw (.missingKey slot)

end Script

namespace Block

/-- A block with the given flags.  Hats, and no other blocks, are at the top, and shadows are reporters. -/
def make (id : BlockId) (opcode : String) (shape : Shape) (inputs : List Input) (fields : List Field)
    (parent next : Option BlockId) (top shadow : Bool) : Except Fault Block :=
  if shape = .hat && !top then .error (.hatNotTop opcode)
  else if top && shape ≠ .hat then .error (.topNotHat opcode)
  else if h : shadow = true → shape = .reporter then
    .ok ⟨id, opcode, shape, inputs, fields, parent, next, shadow, h⟩
  else .error (.shadowNotReporter opcode)

end Block

end BlockScript
