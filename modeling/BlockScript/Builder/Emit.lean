import BlockScript.Builder.Step
import BlockScript.Phrase.Term

/-!
# Building terms

A term becomes a block with the blocks of its arguments.  The id of a block is drawn before those of its arguments,
and the block is added after them.  Building stops at the first part that could not be read.
-/

namespace BlockScript

/-- The field of a slot.  A variable that is not known is reported and has no id. -/
def FieldValue.emit (slot : String) : FieldValue → Build Field
  | .plain value => return ⟨slot, value, none⟩
  | .variableName _ (some entry) => return ⟨slot, entry.name, some entry.id⟩
  | .variableName name none => do
    Build.report (.unknownVariable name)
    return ⟨slot, String.ofList name, none⟩

mutual

/-- Builds the block of a term below the block `owner` and gives its id. -/
def Term.emit (ids : IdSource) (owner : Option BlockId) : Term → Build BlockId
  | .apply op arguments => do
    let id ← Build.drawId ids
    let (inputs, fields) ← arguments.emit ids id
    Build.addBlock op id inputs fields owner
    return id
  | .noted event term => do
    Build.report event
    term.emit ids owner
  | .unreadable fault => throw fault

/-- Builds the blocks of an argument of the block `owner` and gives the input of its slot. -/
def Argument.emit (ids : IdSource) (owner : BlockId) (slot : String) : Argument → Build Input
  | .reference entry => return .reference slot entry.id entry.name entry.kind
  | .shadow shadow value => do
    let id ← Build.addShadow ids shadow value owner
    return .block slot shadow.kind id
  | .nested kind term => do
    let id ← term.emit ids (some owner)
    return .block slot kind id
  | .raw value => return .raw slot value
  | .unreadable fault => throw fault

/-- Builds the blocks of the arguments of the block `owner` and gives its inputs and fields. -/
def Arguments.emit (ids : IdSource) (owner : BlockId) : Arguments → Build (List Input × List Field)
  | .done => return ([], [])
  | .input slot value rest => do
    let input ← value.emit ids owner slot
    let (inputs, fields) ← rest.emit ids owner
    return (input :: inputs, fields)
  | .field slot value rest => do
    let field ← value.emit slot
    let (inputs, fields) ← rest.emit ids owner
    return (inputs, field :: fields)

end

end BlockScript
