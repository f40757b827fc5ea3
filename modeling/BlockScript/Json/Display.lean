import BlockScript.Decimal.Shortest
import BlockScript.Json.Basic
import BlockScript.Text.Quoted

/-!
# Values in messages

A message shows a value on one line, with quoted strings and with the words `None`, `True` and `False`.
-/

namespace BlockScript.Json

mutual

/-- A value as messages show it. -/
def display : Json → Text
  | null => "None".toList
  | bool value => (if value then "True" else "False").toList
  | int value => (toString value).toList
  | real value => value.text
  | text value => Text.quoted value.toList
  | list [] => ['[', ']']
  | list (item :: items) => '[' :: display item ++ displayItems items ++ [']']
  | object [] => ['\x7b', '\x7d']
  | object (member :: members) => '\x7b' :: displayMember member ++ displayMembers members ++ ['\x7d']

/-- The items of a list behind the first one. -/
def displayItems : List Json → Text
  | [] => []
  | item :: items => ',' :: ' ' :: display item ++ displayItems items

/-- A member of an object. -/
def displayMember : String × Json → Text
  | (name, value) => Text.quoted name.toList ++ [':', ' '] ++ display value

/-- The members of an object behind the first one. -/
def displayMembers : List (String × Json) → Text
  | [] => []
  | member :: members => ',' :: ' ' :: displayMember member ++ displayMembers members

end

end BlockScript.Json
