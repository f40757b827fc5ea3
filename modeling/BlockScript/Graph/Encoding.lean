import BlockScript.Graph.Script
import BlockScript.Json.Basic

/-!
# Scripts as JSON

The form in which the editor takes the scripts: a block is an object with its inputs and fields by slots, a script
an object with its blocks by ids.
-/

namespace BlockScript

/-- An input as JSON. -/
def Input.toJson : Input → Json
  | .block slot kind target => .object [("name", .text slot), ("block", .text target), ("kind", .text kind.name)]
  | .reference slot id value kind =>
    .object [("name", .text slot), ("reference", .text id), ("value", .text value), ("kind", .text kind.name)]
  | .raw slot value => .object [("name", .text slot), ("value", .text value)]

/-- A field as JSON. -/
def Field.toJson (field : Field) : Json :=
  .object ([("name", .text field.slot), ("value", .text field.value)] ++
    (field.id.map fun id => ("id", Json.text id)).toList)

/-- A block as JSON. -/
def Block.toJson (b : Block) : Json :=
  .object [("id", .text b.id), ("opcode", .text b.opcode), ("next", Json.ofText? b.next),
    ("parent", Json.ofText? b.parent),
    ("inputs", .object (b.inputs.map fun input => (input.slot, input.toJson))),
    ("fields", .object (b.fields.map fun field => (field.slot, field.toJson))),
    ("shadow", .bool b.shadow), ("topLevel", .bool b.isTop)]

/-- A script as JSON. -/
def Script.toJson (s : Script) : Json :=
  .object [("topBlockId", .text s.top),
    ("blocks", .object (s.blocks.map fun entry => (entry.1, entry.2.toJson)))]

/-- Scripts as JSON. -/
def Script.listToJson (scripts : List Script) : Json :=
  .list (scripts.map Script.toJson)

end BlockScript
