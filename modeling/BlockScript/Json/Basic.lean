import BlockScript.Decimal.Binary64

/-!
# JSON values

Whole numbers and other numbers are kept apart.  The members of an object have distinct names and stand in the
order in which their names first came in.
-/

namespace BlockScript

/-- A JSON value. -/
inductive Json where
  | null
  | bool (value : Bool)
  | int (value : Int)
  | real (value : Binary64)
  | text (value : String)
  | list (items : List Json)
  | object (members : List (String × Json))

namespace Json

/-- The member of an object. -/
def member? (name : String) : Json → Option Json
  | object members => members.lookup name
  | _ => none

/-- A text, or null if there is none. -/
def ofText? (value : Option String) : Json :=
  (value.map text).getD null

end Json

end BlockScript
