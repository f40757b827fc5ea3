import BlockScript.Builder.Basic

/-!
# Steps of building

A step changes the builder, and a step that fails keeps what it has done before it failed.

* A block that is added inside an open body is appended to it, and the body is linked when it is closed.
* When the script ends, the blocks that stand alone follow each other below the hat, in the order of their ids.
-/

namespace BlockScript

/-- A step of building, which keeps its effects when it fails. -/
abbrev Build := EStateM Fault Builder

namespace Build

/-- Changes the blocks. -/
def modifyArena (f : Arena → Arena) : Build Unit :=
  modify fun b => { b with arena := f b.arena }

/-- Reports an event. -/
def report (event : Event) : Build Unit :=
  modify fun b => { b with events := b.events.push event }

/-- The block under an id, which must be there. -/
def block (id : BlockId) : Build Block := do
  match (← get).arena.get? id with
  | some b => return b
  | none => throw (.missingKey id)

/-- Draws a new id. -/
def drawId (ids : IdSource) : Build BlockId := do
  let b ← get
  let id := ids b.drawn
  if b.issued.contains id then
    set { b with drawn := b.drawn + 1 }
    throw (.duplicateId id)
  else
    set { b with drawn := b.drawn + 1, issued := b.issued ++ [id] }
    return id

/-- The slots of an operation that neither inputs nor fields fill. -/
def unfilled (op : Operation) (inputs : List Input) (fields : List Field) : List String :=
  (op.inputSlots.filter fun slot => !Keyed.has Input.slot slot.name inputs).map Slot.name ++
    (op.fieldSlots.filter fun slot => !Keyed.has Field.slot slot.name fields).map Slot.name

/-- The block of an operation. -/
def blockOf (op : Operation) (id : BlockId) (inputs : List Input) (fields : List Field)
    (parent : Option BlockId) : Block :=
  ⟨id, op.opcode, op.shape, inputs, fields, parent, none, false, by simp⟩

/-- Adds a block of an operation, all of whose slots must be filled.  A hat becomes the top of the script. -/
def addBlock (op : Operation) (id : BlockId) (inputs : List Input) (fields : List Field)
    (parent : Option BlockId) : Build Unit := do
  if unfilled op inputs fields = [] then
    modify fun b =>
      { b with
        arena := b.arena.store (blockOf op id inputs fields parent)
        top := if op.shape = .hat then some id else b.top }
  else
    throw (.missingSlots op.opcode (unfilled op inputs fields))

/-- The shadow block of a value, held by the block `owner`. -/
def shadowBlock (shadow : Shadow) (value : String) (id owner : BlockId) : Block :=
  ⟨id, shadow.opcode, .reporter, [], [⟨shadow.field, value, none⟩], some owner, none, true, by simp⟩

/-- Adds a shadow block with a value, held by the block `owner`. -/
def addShadow (ids : IdSource) (shadow : Shadow) (value : String) (owner : BlockId) : Build BlockId := do
  let id ← drawId ids
  modifyArena (·.store (shadowBlock shadow value id owner))
  return id

/-- Appends a block to the innermost open body, if there is one. -/
def append (id : BlockId) : Build Unit :=
  modify fun b =>
    match b.openBodies with
    | [] => b
    | body :: outer => { b with openBodies := { body with children := body.children ++ [id] } :: outer }

/-- Appends a container and opens its first body. -/
def openBody (id : BlockId) (line : Int) : Build Unit := do
  append id
  modify fun b => { b with openBodies := ⟨id, line, Script.firstBody, []⟩ :: b.openBodies }

/-- Links the blocks of a body and lets its container hold them, unless there are none. -/
def settle (body : OpenBody) : Build Unit := do
  match body.children with
  | [] => return
  | first :: _ =>
    body.children.forM fun child => discard (block child)
    modifyArena fun arena =>
      ((Arena.link body.children arena).setParent first body.container).modify body.container
        (·.putInput (.block body.slot .substack first))

/-- Closes the innermost open body and gives its container, which now belongs to the body around it. -/
def closeBody : Build BlockId := do
  let b ← get
  match b.openBodies with
  | [] => throw .endWithoutContainer
  | body :: outer =>
    set { b with openBodies := outer }
    discard (block body.container)
    settle body
    match outer with
    | [] => return body.container
    | parent :: _ =>
      modifyArena (·.setParent body.container parent.container)
      return body.container

/-- Closes the body of the innermost open `if`, turns the `if` into the given operation and opens its second
body. -/
def openSecondBody (op : Operation) (line : Int) : Build BlockId := do
  let b ← get
  match b.openBodies with
  | [] => throw .elseWithoutIf
  | body :: outer =>
    let container ← block body.container
    if container.opcode = Operation.ifThen.opcode && body.slot = Script.firstBody then
      set { b with openBodies := outer }
      settle body
      modifyArena (·.modify body.container fun block => { block with opcode := op.opcode })
      modify fun b => { b with openBodies := ⟨body.container, line, Script.secondBody, []⟩ :: b.openBodies }
      return body.container
    else
      throw (.elseInside container.opcode)

/-- The blocks that stand alone, in the order in which their ids were drawn. -/
def sequence : Build (List BlockId) := do
  match (← get).sequence with
  | .ok ids => return ids
  | .error fault => throw fault

/-- Links the blocks of a sequence below the hat. -/
def hang (hat : BlockId) (sequence : List BlockId) (arena : Arena) : Arena :=
  match sequence with
  | [] => arena
  | first :: _ => ((Arena.link sequence arena).setNext hat first).setParent first hat

/-- Ends the script: no body may be open, and the blocks that stand alone go below the hat. -/
def finish : Build Script := do
  let b ← get
  match b.openBodies with
  | body :: _ => throw (.neverClosed (← block body.container).opcode body.line)
  | [] =>
    match b.top with
    | none => throw .noHat
    | some hat =>
      let ids ← sequence
      modifyArena (hang hat ids)
      let arena := (← get).arena
      report (.assembled hat arena.length ids.length)
      return ⟨hat, arena⟩

end Build

end BlockScript
