import BlockScript.Diagnostic
import BlockScript.Json.Display
import BlockScript.Json.Reader
import BlockScript.Names.Table

/-!
# Writing down known names

A table of known names is written as a JSON object with the sections `globals`, `locals` and `sprites`.  An entry
of a section is a name, or an object with a name and perhaps an id.

* `NameTable.build` puts the entries of the sections together: global variables, local variables, the properties of
  a sprite, and sprites;
* `NameTable.ofJson` takes the table from a document, and `NameTable.ofText` reads the document as well.
-/

namespace BlockScript

/-- An entry of a section: a known name, or a JSON value that is to be one. -/
inductive NameEntry where
  | known (entry : KnownName)
  | written (value : Json)

/-- What is wrong with a table of known names. -/
inductive NameFault where
  | missingFile (path : String)
  | notJson (path : String)
  | tooManyDigits (count : Nat)
  | notObject (path : String)
  | unknownSections (path : String) (sections : List String)
  | notList (path : String) (name : String)
  | nameless (kind : NameKind) (entry : Json)
  | wrongId (kind : NameKind) (name : String)
  | unsupported (kind : NameKind) (entry : Json)

namespace NameFault

/-- The fault of a document that cannot be read. -/
def ofReadFault (path : String) : Json.ReadFault → NameFault
  | .malformed => notJson path
  | .tooManyDigits count => tooManyDigits count

/-- The kind of a fault. -/
def kind : NameFault → FaultKind
  | tooManyDigits _ => .wrongValue
  | _ => .knownName

/-- The words for a fault.  The three dots of `notJson` stand for the reader's own account of where and why the file is
no JSON, which is left out. -/
def reason : NameFault → String
  | missingFile path => s!"Name table file not found: '{path}'."
  | notJson path => s!"Name table '{path}' is not valid JSON: ..."
  | tooManyDigits count =>
    s!"Exceeds the limit ({Text.maxDigits} digits) for integer string conversion: value has {count} digits; " ++
      "use sys.set_int_max_str_digits() to increase the limit"
  | notObject path => s!"Name table '{path}' must be a JSON object."
  | unknownSections path sections =>
    s!"Name table '{path}' has unknown section(s): " ++ ", ".intercalate sections ++ "."
  | notList path name => s!"Section '{name}' of name table '{path}' must be a list."
  | nameless kind entry => s!"Known {kind.name} entry {String.ofList entry.display} has no name."
  | wrongId kind name => s!"Known {kind.name} '{name}' has a non-string id."
  | unsupported kind entry => s!"Unsupported known {kind.name} entry {String.ofList entry.display}."

/-- The fault as it is reported. -/
def diagnose (fault : NameFault) : Diagnostic :=
  Diagnostic.locate fault.kind fault.reason none none none

end NameFault

namespace NameEntry

/-- The known name that an entry of a section stands for.  The id is the name unless another one is given. -/
def toKnownName (kind : NameKind) : NameEntry → Except NameFault KnownName
  | known entry => .ok entry
  | written (.text name) => .ok ⟨name, name, kind⟩
  | written (.object members) =>
    match members.lookup "name" with
    | some (.text name) =>
      if name.isEmpty then .error (.nameless kind (.object members))
      else match members.lookup "id" with
        | none => .ok ⟨name, name, kind⟩
        | some (.text id) => .ok ⟨name, id, kind⟩
        | some _ => .error (.wrongId kind name)
    | _ => .error (.nameless kind (.object members))
  | written value => .error (.unsupported kind value)

end NameEntry

namespace NameTable

/-- The table of the entries of three sections, with the properties of a sprite if they are asked for. -/
def build (globals locals sprites : List NameEntry) (withBuiltins : Bool) : Except NameFault NameTable := do
  let globals ← globals.mapM (NameEntry.toKnownName .globalVariable)
  let locals ← locals.mapM (NameEntry.toKnownName .localVariable)
  let sprites ← sprites.mapM (NameEntry.toKnownName .sprite)
  return ⟨globals ++ locals ++ (if withBuiltins then builtins else []) ++ sprites⟩

/-- The names of the sections. -/
def sections : List String :=
  ["globals", "locals", "sprites"]

/-- The entries of a section, which must be a list; a section that is left out is empty. -/
def sectionOf (path : String) (members : List (String × Json)) (name : String) :
    Except NameFault (List NameEntry) :=
  match members.lookup name with
  | none => .ok []
  | some (.list items) => .ok (items.map .written)
  | some _ => .error (.notList path name)

/-- Adds a text to texts in ascending order. -/
def insertSorted (s : String) : List String → List String
  | [] => [s]
  | t :: rest => if s ≤ t then s :: t :: rest else t :: insertSorted s rest

/-- The table that the document at a path holds. -/
def ofJson (path : String) (withBuiltins : Bool) : Json → Except NameFault NameTable
  | .object members => do
    let unknown := (members.map Prod.fst).filter (!sections.contains ·)
    if unknown ≠ [] then
      throw (.unknownSections path (unknown.foldr insertSorted []))
    let globals ← sectionOf path members "globals"
    let locals ← sectionOf path members "locals"
    let sprites ← sectionOf path members "sprites"
    build globals locals sprites withBuiltins
  | _ => .error (.notObject path)

/-- The table that the text at a path holds. -/
def ofText (path : String) (withBuiltins : Bool) (t : Text) : Except NameFault NameTable := do
  ofJson path withBuiltins (← (Json.read t).mapError (NameFault.ofReadFault path))

end NameTable

end BlockScript
