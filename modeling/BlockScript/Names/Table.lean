import BlockScript.Graph.Block

/-!
# Known names

The names of the variables and sprites of a project, and of the properties that can be read like variables.
-/

namespace BlockScript

/-- A known name, the id under which the editor keeps it, and what it stands for. -/
structure KnownName where
  name : String
  id : String
  kind : NameKind
  deriving DecidableEq, Repr

/-- A table of known names. -/
structure NameTable where
  entries : List KnownName
  deriving DecidableEq, Repr

namespace NameTable

/-- The first entry for a name. -/
def lookup (table : NameTable) (name : String) : Option KnownName :=
  table.entries.find? (·.name == name)

/-- The name under which an entry is found is its name. -/
theorem name_of_lookup {table : NameTable} {name : String} {entry : KnownName} (h : table.lookup name = some entry) :
    entry.name = name := by
  simpa using List.find?_some h

/-- Whether a name is known. -/
def has (table : NameTable) (name : String) : Bool :=
  (table.lookup name).isSome

/-- The number of entries. -/
def size (table : NameTable) : Nat :=
  table.entries.length

/-- The table in a few words. -/
def summary (table : NameTable) : String :=
  s!"KnownNames({table.size} entries)"

/-- The properties of a sprite that can be read like variables, by the reporters that give them. -/
def builtins : List KnownName :=
  [⟨"size", "looks_size", .builtin⟩, ⟨"x position", "motion_xposition", .builtin⟩,
    ⟨"y position", "motion_yposition", .builtin⟩, ⟨"direction", "motion_direction", .builtin⟩,
    ⟨"costume #", "looks_costumenumbername.number", .builtin⟩,
    ⟨"costume name", "looks_costumenumbername.name", .builtin⟩, ⟨"volume", "sound_volume", .builtin⟩]

/-- The table in which nothing but the properties of a sprite is known. -/
def default : NameTable :=
  ⟨builtins⟩

end NameTable

end BlockScript
