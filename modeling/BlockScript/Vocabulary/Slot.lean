import BlockScript.Graph.Block

/-!
# Slots

The kinds of slots of an operation, and the shadow blocks that stand in for plain values in them.
-/

namespace BlockScript

/-- The kinds of slots for a literal value. -/
inductive Literal where
  | number
  | positiveNumber
  | wholeNumber
  | angle
  | text
  | value
  deriving DecidableEq, Repr

/-- The menus that a slot can offer, and the colour picker. -/
inductive Menu where
  | color
  | key
  | broadcast
  | sound
  | touching
  | clone
  | costume
  | backdrop
  | goto
  | glide
  | towards
  | distance
  | ofObject
  deriving DecidableEq, Repr

/-- The kinds of slots. -/
inductive SlotKind where
  | literal (kind : Literal)
  | menu (menu : Menu)
  /-- A condition. -/
  | boolean
  /-- An input that is kept as it is written. -/
  | raw
  /-- A field that names a variable. -/
  | variableName
  /-- A field that holds one of the given words. -/
  | choice (options : List String)
  /-- A field that holds any text. -/
  | field
  deriving DecidableEq, Repr

/-- A block that holds a plain value: its opcode, the field with the value, and how an input stores it. -/
structure Shadow where
  opcode : String
  field : String
  kind : InputKind
  deriving DecidableEq, Repr

namespace Literal

/-- The block that holds a literal. -/
def shadow : Literal → Shadow
  | number => ⟨"math_number", "NUM", .number⟩
  | positiveNumber => ⟨"math_positive_number", "NUM", .positiveNumber⟩
  | wholeNumber => ⟨"math_whole_number", "NUM", .wholeNumber⟩
  | angle => ⟨"math_angle", "NUM", .angle⟩
  | text => ⟨"text", "TEXT", .text⟩
  | value => ⟨"text", "TEXT", .text⟩

end Literal

namespace Menu

/-- The block that holds the chosen entry of a menu. -/
def shadow : Menu → Shadow
  | color => ⟨"colour_picker", "COLOUR", .color⟩
  | key => ⟨"sensing_keyoptions", "KEY_OPTION", .menu⟩
  | broadcast => ⟨"event_broadcast_menu", "BROADCAST_OPTION", .menu⟩
  | sound => ⟨"sound_sounds_menu", "SOUND_MENU", .menu⟩
  | touching => ⟨"sensing_touchingobjectmenu", "TOUCHINGOBJECTMENU", .menu⟩
  | clone => ⟨"control_create_clone_of_menu", "CLONE_OPTION", .menu⟩
  | costume => ⟨"looks_costume", "COSTUME", .menu⟩
  | backdrop => ⟨"looks_backdrops", "BACKDROP", .menu⟩
  | goto => ⟨"motion_goto_menu", "TO", .menu⟩
  | glide => ⟨"motion_glideto_menu", "TO", .menu⟩
  | towards => ⟨"motion_pointtowards_menu", "TOWARDS", .menu⟩
  | distance => ⟨"sensing_distancetomenu", "DISTANCETOMENU", .menu⟩
  | ofObject => ⟨"sensing_of_object_menu", "OBJECT", .menu⟩

/-- The entries that the editor stores under a name of its own. -/
def storedNames : List (String × String) :=
  [("random position", "_random_"), ("mouse-pointer", "_mouse_"), ("mouse pointer", "_mouse_"),
    ("myself", "_myself_"), ("edge", "_edge_")]

/-- What is stored for an entry of a menu; colours are stored as they are. -/
def stored (menu : Menu) (entry : String) : String :=
  if menu = color then entry else (storedNames.lookup entry).getD entry

/-- An entry of a menu is stored under its own name if the editor has no other name for it. -/
theorem stored_eq_self_iff {menu : Menu} (hmenu : menu ≠ .color) (entry : String) :
    menu.stored entry = entry ↔ entry ∉ storedNames.map Prod.fst := by
  have hother : ∀ pair ∈ storedNames, pair.2 ≠ pair.1 := by decide
  rw [stored, if_neg hmenu]
  cases hlookup : storedNames.lookup entry with
  | none =>
    simp only [Option.getD_none, true_iff]
    intro hmem
    obtain ⟨pair, hpair, rfl⟩ := List.mem_map.1 hmem
    simpa using List.lookup_eq_none_iff.1 hlookup pair hpair
  | some name =>
    obtain ⟨before, after, hsplit, -⟩ := List.lookup_eq_some_iff.1 hlookup
    have hmem : (entry, name) ∈ storedNames := by rw [hsplit]; simp
    exact iff_of_false (hother _ hmem) (not_not_intro (List.mem_map.2 ⟨_, hmem, rfl⟩))

end Menu

namespace SlotKind

/-- A number. -/
abbrev number : SlotKind := literal .number

/-- A number that is not negative. -/
abbrev positiveNumber : SlotKind := literal .positiveNumber

/-- A whole number. -/
abbrev wholeNumber : SlotKind := literal .wholeNumber

/-- A direction. -/
abbrev angle : SlotKind := literal .angle

/-- A text. -/
abbrev text : SlotKind := literal .text

/-- A number or a text. -/
abbrev value : SlotKind := literal .value

/-- The kinds of slots, those of choice without options. -/
def all : List SlotKind :=
  [number, positiveNumber, wholeNumber, angle, text, menu .color, boolean, value, raw, menu .key,
    menu .broadcast, menu .sound, menu .touching, menu .clone, menu .costume, menu .backdrop, menu .goto,
    menu .glide, menu .towards, menu .distance, menu .ofObject, variableName, choice [], field]

/-- The word for a kind of slot. -/
def name : SlotKind → String
  | literal .number => "number"
  | literal .positiveNumber => "positive_number"
  | literal .wholeNumber => "whole_number"
  | literal .angle => "angle"
  | literal .text => "text"
  | literal .value => "value"
  | menu .color => "color"
  | menu .key => "key_menu"
  | menu .broadcast => "broadcast_menu"
  | menu .sound => "sound_menu"
  | menu .touching => "touching_menu"
  | menu .clone => "clone_menu"
  | menu .costume => "costume_menu"
  | menu .backdrop => "backdrop_menu"
  | menu .goto => "goto_menu"
  | menu .glide => "glide_menu"
  | menu .towards => "towards_menu"
  | menu .distance => "distance_menu"
  | menu .ofObject => "of_object_menu"
  | boolean => "boolean"
  | raw => "raw"
  | variableName => "variable_field"
  | choice _ => "choice_field"
  | field => "field"

/-- The kind of slot that a word stands for, with options if it is a choice. -/
def ofName? (word : String) (options : List String) : Option SlotKind :=
  (all.find? (·.name == word)).map fun kind => if kind = choice [] then choice options else kind

/-- The words among which a choice is made. -/
def options : SlotKind → List String
  | choice options => options
  | _ => []

/-- Whether the slot is a field of its block, and no input. -/
def isField : SlotKind → Bool
  | variableName => true
  | choice _ => true
  | field => true
  | _ => false

/-- Whether the text of the slot may end in the mark of a dropdown, written in its pattern or not. -/
def isDropdown : SlotKind → Bool
  | menu m => m != .color
  | kind => kind.isField

/-- The block that holds a plain value in a slot that offers no menu. -/
def literalShadow : SlotKind → Shadow
  | literal kind => kind.shadow
  | _ => Literal.value.shadow

end SlotKind

/-- A named slot of an operation. -/
structure Slot where
  name : String
  kind : SlotKind
  deriving DecidableEq, Repr

end BlockScript
