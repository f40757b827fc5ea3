import BlockScript.Text.Alphanumeric

/-!
# Kinds of lines

`Line.ofText` finds the kind of a line and the text that its kind takes as an argument.  The rules are tried in
order; a line to which none applies is a statement.
-/

namespace BlockScript

/-- What a line of the source does. -/
inductive LineKind where
  /-- Begins a script. -/
  | trigger
  | forever
  | repeatTimes
  | repeatUntil
  | ifThen
  /-- Begins the second body of an `if`. -/
  | otherwise
  /-- Ends a container. -/
  | close
  | statement
  /-- Stands after the last line. -/
  | finish
  /-- A kind that no line of a source has. -/
  | other (name : String)
  deriving DecidableEq, Repr

namespace LineKind

/-- The kinds that a source can show. -/
def all : List LineKind :=
  [trigger, forever, repeatTimes, repeatUntil, ifThen, otherwise, close, statement, finish]

/-- The word for a kind. -/
def name : LineKind → String
  | trigger => "WHEN"
  | forever => "FOREVER"
  | repeatTimes => "REPEAT"
  | repeatUntil => "REPEAT_UNTIL"
  | ifThen => "IF"
  | otherwise => "ELSE"
  | close => "END"
  | statement => "STATEMENT"
  | finish => "EOF"
  | other name => name

/-- The kind that a word stands for. -/
def ofName (word : String) : LineKind :=
  (all.find? (·.name == word)).getD (other word)

end LineKind

/-- A significant line: its kind, its trimmed text, where it stands, and the text that its kind takes. -/
structure Line where
  kind : LineKind
  text : Text
  number : Int
  column : Int
  argument : Option Text
  deriving DecidableEq, Repr

namespace Line

/-- Whether the characters of a text belong one by one to the given sets. -/
def isSpelled : (letters : List Text) → Text → Bool
  | [], [] => true
  | set :: letters, c :: t => set.contains c && isSpelled letters t
  | _, _ => false

/-- The letters of `end` in both cases. -/
def endLetters : List Text :=
  [['e', 'E'], ['n', 'N'], ['d', 'D']]

/-- The letters of `else` in both cases; the long s is a lower-case s. -/
def elseLetters : List Text :=
  [['e', 'E'], ['l', 'L'], ['s', 'S', 'ſ'], ['e', 'E']]

/-- Whether a word that stands in front of `rest` ends there. -/
def endsWord (rest : Text) : Bool :=
  !rest.head?.any isWordChar

/-- Whether a text stays on one line. -/
def isOneLine (t : Text) : Bool :=
  !t.contains '\n'

/-- A trigger is the word `when` and anything behind it. -/
def isTrigger (t : Text) : Bool :=
  (Text.after? "when".toList t).any fun rest => endsWord rest && isOneLine rest

/-- The condition of `repeat until …`. -/
def untilArgument? (t : Text) : Option Text := do
  let rest ← Text.after? "repeat".toList t
  guard (rest.head?.any isBlank)
  let rest ← Text.after? "until".toList (Text.trimLeft rest)
  guard (endsWord rest && isOneLine (Text.trimLeft rest))
  some (Text.trim rest)

/-- The count of `repeat …`: what follows blanks, or begins with a bracket.  Two blanks are a blank count. -/
def timesArgument? (t : Text) : Option Text := do
  let rest ← Text.after? "repeat".toList t
  let first ← rest.head?
  if isBlank first then
    if Text.isAllBlank rest then
      guard (1 < rest.length && rest.getLast? != some '\n')
    else
      guard (isOneLine (Text.trimLeft rest))
  else
    guard ((first == '(' || first == '[') && isOneLine rest)
  some (Text.trim rest)

/-- The condition of `if … then`.  Blanks alone are a blank condition. -/
def ifArgument? (t : Text) : Option Text := do
  let rest ← Text.after? "if".toList t
  guard ("then".toList.isSuffixOf rest)
  let middle := rest.take (rest.length - "then".length)
  if Text.isAllBlank middle then
    guard (middle.any (· != '\n'))
  else
    guard (isOneLine (Text.trim middle))
  some (Text.trim middle)

/-- The kind of a line and the text that the kind takes. -/
def kindOf (t : Text) : LineKind × Option Text :=
  if isSpelled endLetters t then (.close, none)
  else if isSpelled elseLetters t then (.otherwise, none)
  else if isTrigger t then (.trigger, none)
  else if t = "forever".toList then (.forever, none)
  else match untilArgument? t with
    | some condition => (.repeatUntil, if condition = [] then none else some condition)
    | none =>
      match timesArgument? t with
      | some count => (.repeatTimes, some count)
      | none =>
        match ifArgument? t with
        | some condition => (.ifThen, some condition)
        | none => (.statement, none)

/-- The line that a trimmed text makes at a place. -/
def ofText (t : Text) (number column : Int) : Line :=
  ⟨(kindOf t).1, t, number, column, (kindOf t).2⟩

end Line

end BlockScript
