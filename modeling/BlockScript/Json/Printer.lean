import BlockScript.Decimal.Shortest
import BlockScript.Json.Basic
import BlockScript.Text.Hex

/-!
# Writing JSON

Strings are written in printable ASCII: any other character is escaped by its code units, in lower case.  `render`
writes a value on one line, `pretty` on a line for each item, indented by two spaces a level.
-/

namespace BlockScript.Json

/-- The escape of a code unit. -/
def escapeUnit (n : Nat) : Text :=
  '\\' :: 'u' :: hex 4 n

/-- A character as it stands in a string. -/
def escapeChar (c : Char) : Text :=
  if c == '"' || c == '\\' then ['\\', c]
  else if c == '\n' then ['\\', 'n']
  else if c == '\r' then ['\\', 'r']
  else if c == '\t' then ['\\', 't']
  else if c == '\x08' then ['\\', 'b']
  else if c == '\x0c' then ['\\', 'f']
  else if 0x20 ≤ c.toNat && c.toNat < 0x7F then [c]
  else if c.toNat < 0x10000 then escapeUnit c.toNat
  else
    let n := c.toNat - 0x10000
    escapeUnit (0xD800 + n / 0x400) ++ escapeUnit (0xDC00 + n % 0x400)

/-- A string in quotes. -/
def renderText (s : String) : Text :=
  '"' :: s.toList.flatMap escapeChar ++ ['"']

/-- A number that is not whole. -/
def renderReal : Binary64 → Text
  | .nan => "NaN".toList
  | .infinity negative => (if negative then "-Infinity" else "Infinity").toList
  | x => x.text

/-- How the parts of a list or an object are set apart: what stands behind a comma, and the indentation of a level
if each part takes a line of its own. -/
structure Layout where
  afterComma : Text
  indent : Option Nat

namespace Layout

/-- Everything on one line. -/
def line : Layout :=
  ⟨[' '], none⟩

/-- Each part on a line, two spaces further in. -/
def tree : Layout :=
  ⟨[], some 2⟩

/-- The break in front of a part at some level. -/
def newline (l : Layout) (level : Nat) : Text :=
  match l.indent with
  | none => []
  | some width => '\n' :: List.replicate (width * level) ' '

end Layout

mutual

/-- A value inside `level` lists and objects. -/
def write (l : Layout) (level : Nat) : Json → Text
  | null => "null".toList
  | bool value => (if value then "true" else "false").toList
  | int value => (toString value).toList
  | real value => renderReal value
  | text value => renderText value
  | list [] => ['[', ']']
  | list (item :: items) =>
    '[' :: l.newline (level + 1) ++ write l (level + 1) item ++ writeItems l (level + 1) items ++
      l.newline level ++ [']']
  | object [] => ['\x7b', '\x7d']
  | object (member :: members) =>
    '\x7b' :: l.newline (level + 1) ++ writeMember l (level + 1) member ++
      writeMembers l (level + 1) members ++ l.newline level ++ ['\x7d']

/-- The items of a list behind the first one. -/
def writeItems (l : Layout) (level : Nat) : List Json → Text
  | [] => []
  | item :: items =>
    ',' :: l.afterComma ++ l.newline level ++ write l level item ++ writeItems l level items

/-- A member of an object. -/
def writeMember (l : Layout) (level : Nat) : String × Json → Text
  | (name, value) => renderText name ++ [':', ' '] ++ write l level value

/-- The members of an object behind the first one. -/
def writeMembers (l : Layout) (level : Nat) : List (String × Json) → Text
  | [] => []
  | member :: members =>
    ',' :: l.afterComma ++ l.newline level ++ writeMember l level member ++ writeMembers l level members

end

/-- A value on one line. -/
def render (j : Json) : String :=
  String.ofList (write .line 0 j)

/-- A value with a line for each item. -/
def pretty (j : Json) : String :=
  String.ofList (write .tree 0 j)

end BlockScript.Json
