import BlockScript.Graph.Script

/-!
# Validity of scripts

A valid script is a tree under its hat.  `check` finds the first defect of a script: a wrong top, an edge whose
target is missing or has another parent, a block that two edges lead to, a block without a parent, or a block that
no path from the hat reaches.  `checkAll` also finds a block that is in two scripts.
-/

namespace BlockScript

/-- What leads from a block to another one. -/
inductive Edge where
  | input (slot : String)
  | next
  deriving DecidableEq, Repr

namespace Edge

/-- The words for an edge. -/
def describe : Edge → String
  | input slot => s!"input '{slot}'"
  | next => "next"

end Edge

/-- What is wrong with a script. -/
inductive Defect where
  | missingTop (top : BlockId)
  | wrongTops (top : BlockId) (count : Nat)
  | missingTarget (owner : BlockId) (edge : Edge) (target : BlockId)
  | wrongParent (owner : BlockId) (edge : Edge) (target : BlockId) (parent : Option BlockId)
  | shadowWithNext (id : BlockId)
  | unstackable (id follower : BlockId)
  | ownedTwice (id : BlockId) (count : Nat)
  | noParent (id : BlockId) (opcode : String)
  | missingParent (id parent : BlockId)
  | reachedTwice (id : BlockId)
  | unreached (ids : List BlockId)
  | sharedId (id first second : BlockId)
  deriving DecidableEq, Repr

namespace Defect

/-- The words for a defect. -/
def reason : Defect → String
  | missingTop top => s!"Top block '{top}' is missing from its script."
  | wrongTops top count => s!"Script '{top}' must have exactly one top-level hat, found {count}."
  | missingTarget owner edge target =>
    s!"Block '{owner}' {edge.describe} points at missing block '{target}'."
  | wrongParent owner edge target parent =>
    let actual := parent.getD "None"
    s!"Block '{target}' is reached from '{owner}' via {edge.describe} but its parent is '{actual}'."
  | shadowWithNext id => s!"Shadow block '{id}' has a next block."
  | unstackable id follower => s!"Block '{id}' is followed by '{follower}', which cannot be stacked."
  | ownedTwice id count => s!"Block '{id}' is owned {count} times."
  | noParent id opcode => s!"Block '{id}' ({opcode}) has no parent."
  | missingParent id parent => s!"Block '{id}' names missing parent '{parent}'."
  | reachedTwice id => s!"Block '{id}' is reached twice; the graph has a cycle."
  | unreached ids => "Block(s) not reachable from the hat: " ++ ", ".intercalate ids ++ "."
  | sharedId id first second => s!"Block id '{id}' is used by scripts '{first}' and '{second}'."

/-- The defect as it is reported. -/
def diagnose (defect : Defect) : Diagnostic :=
  Diagnostic.locate .invalidGraph defect.reason none none none

end Defect

namespace Block

/-- The edges from a block: those of its inputs, and then the one to the next block. -/
def edges (b : Block) : List (Edge × BlockId) :=
  (b.inputs.filterMap fun input => input.target?.map fun target => (.input input.slot, target)) ++
    (b.next.map fun target => (.next, target)).toList

/-- The ends of the edges from a block. -/
def targets (b : Block) : List BlockId :=
  b.edges.map Prod.snd

end Block

namespace Validity

/-- The top of the script is there, and is its only hat. -/
def checkTop (s : Script) : Except Defect Unit :=
  let tops := (s.blocks.blocks.filter Block.isTop).map Block.id
  if !s.blocks.keys.contains s.top then .error (.missingTop s.top)
  else if tops ≠ [s.top] then .error (.wrongTops s.top tops.length)
  else .ok ()

/-- An edge leads to a block whose parent is the block that it comes from.  Only a block that is no shadow is
followed by another one, and that is neither a shadow nor a hat. -/
def checkEdge (s : Script) (b : Block) (edge : Edge × BlockId) : Except Defect Unit :=
  if edge.1 = .next && b.shadow then .error (.shadowWithNext b.id)
  else match s.blocks.get? edge.2 with
    | none => .error (.missingTarget b.id edge.1 edge.2)
    | some target =>
      if target.parent ≠ some b.id then .error (.wrongParent b.id edge.1 edge.2 target.parent)
      else if edge.1 = .next && (target.shadow || target.isTop) then .error (.unstackable b.id target.id)
      else .ok ()

/-- No block is the end of two edges. -/
def checkOwners (s : Script) : Except Defect Unit :=
  let ends := s.blocks.blocks.flatMap Block.targets
  match ends.find? fun id => 1 < ends.count id with
  | some id => .error (.ownedTwice id (ends.count id))
  | none => .ok ()

/-- Every block but the hat has a parent, and all parents are there. -/
def checkParent (s : Script) (b : Block) : Except Defect Unit :=
  match b.parent with
  | none => if b.isTop then .ok () else .error (.noParent b.id b.opcode)
  | some parent => if s.blocks.keys.contains parent then .ok () else .error (.missingParent b.id parent)

/-- The ends of the edges from the block under a key. -/
def targetsOf (s : Script) (id : BlockId) : List BlockId :=
  ((s.blocks.get? id).map Block.targets).getD []

/-- Visits the blocks that the pending ones lead to, the latest edge first, and gives the blocks that are left
over.  A pending block must not have been visited before. -/
def walk (s : Script) (unvisited : List BlockId) : (pending : List BlockId) → Except Defect (List BlockId)
  | [] => .ok unvisited
  | id :: pending =>
    if _h : id ∈ unvisited then walk s (unvisited.erase id) ((targetsOf s id).reverse ++ pending)
    else .error (.reachedTwice id)
termination_by unvisited.length
decreasing_by
  have := List.length_erase_of_mem _h
  have := List.length_pos_of_mem _h
  omega

/-- Every block is reached from the hat. -/
def checkReach (s : Script) : Except Defect Unit := do
  match ← walk s s.blocks.keys [s.top] with
  | [] => return
  | ids => throw (.unreached ids)

/-- The first defect of a script. -/
def check (s : Script) : Except Defect Unit := do
  checkTop s
  s.blocks.blocks.forM fun b => b.edges.forM (checkEdge s b)
  checkOwners s
  s.blocks.blocks.forM (checkParent s)
  checkReach s

/-- No block of a script is one of the blocks `seen`, each with the top of its script. -/
def checkDisjoint (seen : List (BlockId × BlockId)) (s : Script) : Except Defect Unit :=
  s.blocks.keys.forM fun id =>
    match seen.lookup id with
    | some first => .error (.sharedId id first s.top)
    | none => .ok ()

/-- The first defect of some scripts, `seen` being the blocks of the scripts before them. -/
def checkFrom (seen : List (BlockId × BlockId)) : List Script → Except Defect Unit
  | [] => .ok ()
  | s :: rest => do
    check s
    checkDisjoint seen s
    checkFrom (seen ++ s.blocks.keys.map fun id => (id, s.top)) rest

/-- The first defect of some scripts, which must not share a block. -/
def checkAll (scripts : List Script) : Except Defect Unit :=
  checkFrom [] scripts

end Validity

end BlockScript
