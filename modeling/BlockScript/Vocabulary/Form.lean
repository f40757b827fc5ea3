import BlockScript.Text.Basic

/-!
# Forms

A form is a sequence of pieces that a text has to show one after the other.  Some pieces can be met in several
ways; they name the order in which these are tried, and the first way that lets the rest of the form match is
taken.  So the meaning of a piece is a function of the meaning of what follows it.

* `Form.match?` gives the texts of the slots, trimmed, by the names of the slots.
-/

namespace BlockScript

/-- Texts by the names of the slots that they fill. -/
abbrev Bindings := List (String × Text)

/-- A piece of a form. -/
inductive Piece where
  /-- One of the given characters. -/
  | oneOf (set : List Char)
  /-- One of the given characters, or else nothing. -/
  | optional (set : List Char)
  /-- Blanks, as many as possible; at least one if they are required. -/
  | gap (required : Bool)
  /-- Blanks and the letter `v`, or else nothing. -/
  | marker
  /-- Nothing, in front of one of the given characters. -/
  | ahead (set : List Char)
  /-- As few characters as possible of one line, and at least one: the text of a slot. -/
  | shortest (slot : String)
  /-- As many characters as possible of one line, and at least one: the text of a slot. -/
  | longest (slot : String)
  /-- The first of the given words that fits: the text of a slot. -/
  | word (slot : String) (options : List Text)
  deriving DecidableEq, Repr

/-- What follows a piece: the bindings of the rest, if it matches. -/
abbrev Continuation := Text → Option Bindings

namespace Piece

/-- One character of the set, and then the rest. -/
def runOneOf (set : List Char) (next : Continuation) : Continuation
  | c :: t => if set.contains c then next t else none
  | [] => none

/-- The most blanks that let the rest match. -/
def runGap (next : Continuation) : (required : Bool) → Continuation
  | required, c :: t =>
    if isBlank c then
      (runGap next false t).or (if required then none else next (c :: t))
    else if required then none else next (c :: t)
  | required, [] => if required then none else next []

/-- The fewest characters that let the rest match, with the bindings of the rest. -/
def runShortest (next : Continuation) : Text → Option (Text × Bindings)
  | [] => none
  | c :: t =>
    if c = '\n' then none
    else match next t with
      | some found => some ([c], found)
      | none => (runShortest next t).map fun found => (c :: found.1, found.2)

/-- The most characters that let the rest match, with the bindings of the rest. -/
def runLongest (next : Continuation) : Text → Option (Text × Bindings)
  | [] => none
  | c :: t =>
    if c = '\n' then none
    else match runLongest next t with
      | some found => some (c :: found.1, found.2)
      | none => (next t).map fun found => ([c], found)

/-- Binds the text of a slot in front of the bindings of the rest. -/
def bind (slot : String) (found : Text × Bindings) : Bindings :=
  (slot, found.1.trim) :: found.2

/-- The meaning of a piece in front of the meaning of the rest. -/
def run (next : Continuation) : Piece → Continuation
  | oneOf set => runOneOf set next
  | optional set => fun t => (runOneOf set next t).or (next t)
  | gap required => runGap next required
  | marker => fun t => (runGap (runOneOf ['v'] next) true t).or (next t)
  | ahead set => fun t => if t.head?.any set.contains then next t else none
  | shortest slot => fun t => (runShortest next t).map (bind slot)
  | longest slot => fun t => (runLongest next t).map (bind slot)
  | word slot options => fun t =>
    options.findSome? fun option =>
      ((Text.after? option t).bind next).map fun found => bind slot (option, found)

/-- The slot whose text a piece takes. -/
def slot? : Piece → Option String
  | shortest slot => some slot
  | longest slot => some slot
  | word slot _ => some slot
  | _ => none

end Piece

/-- A sequence of pieces. -/
abbrev Form := List Piece

namespace Form

/-- The bindings of a text that shows the pieces of a form and nothing else. -/
def match? : Form → Continuation
  | [] => fun t => if t = [] then some [] else none
  | p :: form => p.run (match? form)

/-- The slots whose texts a form takes, in order. -/
def slots (form : Form) : List String :=
  form.filterMap Piece.slot?

/-- The form of a text that is spelled exactly so. -/
def exactly (t : Text) : Form :=
  t.map fun c => .oneOf [c]

/-- Adds a word to the words that stand in order of falling length. -/
def insertByLength (w : Text) : List Text → List Text
  | [] => [w]
  | x :: rest => if x.length ≤ w.length then w :: x :: rest else x :: insertByLength w rest

/-- The words in order of falling length, those of one length in their old order. -/
def longestFirst : List Text → List Text
  | [] => []
  | w :: rest => insertByLength w (longestFirst rest)

/-- Adding a word loses none of the others. -/
theorem insertByLength_perm (w : Text) (ws : List Text) : (insertByLength w ws).Perm (w :: ws) := by
  induction ws with
  | nil => exact List.Perm.refl _
  | cons x ws ih =>
    unfold insertByLength
    split
    · exact List.Perm.refl _
    · exact (ih.cons x).trans (List.Perm.swap w x ws)

/-- Sorting the words loses none of them. -/
theorem longestFirst_perm (ws : List Text) : (longestFirst ws).Perm ws := by
  induction ws with
  | nil => exact List.Perm.refl _
  | cons w ws ih => exact (insertByLength_perm w _).trans (ih.cons w)

end Form

end BlockScript
