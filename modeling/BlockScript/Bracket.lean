import BlockScript.Text.Basic

/-!
# Brackets

Round and square brackets always count.  An angle sign is a bracket only beside a character that is no blank: `<`
opens before one and `>` closes after one, so that `x > 5` stays a comparison inside `<x > 5>`.  A closer ends the
innermost open group if it is the closer of that group, and nothing otherwise.

* `depths` gives the number of groups around each character; a bracket itself lies outside its group;
* `isWrapped` says that one pair wraps a whole text;
* `bare` removes such pairs, and the blanks beside them, as long as there are any.
-/

namespace BlockScript

/-- The three kinds of brackets. -/
inductive Bracket where
  | round
  | square
  | angle
  deriving DecidableEq, Repr

namespace Bracket

/-- The character that opens a group. -/
def opener : Bracket → Char
  | round => '('
  | square => '['
  | angle => '<'

/-- The character that closes a group. -/
def closer : Bracket → Char
  | round => ')'
  | square => ']'
  | angle => '>'

/-- The kind of bracket that a character opens, wherever it stands. -/
def ofOpener? (c : Char) : Option Bracket :=
  if c == '(' then some round else if c == '[' then some square else if c == '<' then some angle else none

/-- The kind of bracket that a character closes, wherever it stands. -/
def ofCloser? (c : Char) : Option Bracket :=
  if c == ')' then some round else if c == ']' then some square else if c == '>' then some angle else none

/-- A character opens a kind of bracket exactly if it is the opener of that kind. -/
theorem ofOpener?_eq_some_iff {c : Char} {b : Bracket} : ofOpener? c = some b ↔ c = b.opener := by
  constructor
  · intro h
    unfold ofOpener? at h
    split at h
    · cases h; simp_all [opener]
    · split at h
      · cases h; simp_all [opener]
      · split at h
        · cases h; simp_all [opener]
        · cases h
  · rintro rfl
    cases b <;> rfl

/-- A character closes a kind of bracket exactly if it is the closer of that kind. -/
theorem ofCloser?_eq_some_iff {c : Char} {b : Bracket} : ofCloser? c = some b ↔ c = b.closer := by
  constructor
  · intro h
    unfold ofCloser? at h
    split at h
    · cases h; simp_all [closer]
    · split at h
      · cases h; simp_all [closer]
      · split at h
        · cases h; simp_all [closer]
        · cases h
  · rintro rfl
    cases b <;> rfl

/-- An angle sign is a bracket only beside a character that is no blank. -/
def holdsBeside (b : Bracket) (neighbour : Option Char) : Bool :=
  b != angle || neighbour.any (!isBlank ·)

/-- The group opened by `c` before the character `next`. -/
def opening (c : Char) (next : Option Char) : Option Bracket :=
  (ofOpener? c).filter (·.holdsBeside next)

/-- The group closed by `c` after the character `previous`. -/
def closing (previous : Option Char) (c : Char) : Option Bracket :=
  (ofCloser? c).filter (·.holdsBeside previous)

/-- Round and square brackets, which group values. -/
def ofValues : List Bracket :=
  [round, square]

/-- All brackets. -/
def all : List Bracket :=
  [round, square, angle]

end Bracket

/-- What a character does to the open groups. -/
inductive Turn where
  | enter (b : Bracket)
  | leave
  | stay
  deriving DecidableEq, Repr

/-- What `c` does inside `groups`, the innermost first, between the characters `previous` and `next`. -/
def turn (groups : List Bracket) (previous : Option Char) (c : Char) (next : Option Char) : Turn :=
  match Bracket.opening c next with
  | some b => .enter b
  | none =>
    match groups with
    | [] => .stay
    | b :: _ => if Bracket.closing previous c = some b then .leave else .stay

namespace Text

/-- The depths of the characters of a text inside `groups`, of which there are `depth`. -/
def depthsWithin (groups : List Bracket) (depth : Nat) (previous : Option Char) : Text → List Nat
  | [] => []
  | c :: rest =>
    match turn groups previous c rest.head? with
    | .enter b => depth :: depthsWithin (b :: groups) (depth + 1) (some c) rest
    | .leave => (depth - 1) :: depthsWithin groups.tail (depth - 1) (some c) rest
    | .stay => depth :: depthsWithin groups depth (some c) rest

/-- The number of groups around each character. -/
def depths (t : Text) : List Nat :=
  depthsWithin [] 0 none t

theorem length_depthsWithin (t : Text) : ∀ (groups : List Bracket) (depth : Nat) (previous : Option Char),
    (depthsWithin groups depth previous t).length = t.length := by
  induction t with
  | nil => intro _ _ _; rfl
  | cons c t ih =>
    intro groups depth previous
    unfold depthsWithin
    split <;> simp [ih]

/-- Each character has a depth. -/
theorem length_depths (t : Text) : t.depths.length = t.length :=
  length_depthsWithin t [] 0 none

/-- The characters between the first and the last one. -/
def inner (t : Text) : Text :=
  t.tail.dropLast

/-- The depths of a text that one pair wraps: all characters between the first and the last one lie inside a
group, and the last one outside. -/
def wraps (ds : List Nat) : Bool :=
  ds.tail.dropLast.all (0 < ·) && ds.getLast? == some 0

/-- One pair of brackets of the given kinds wraps the whole text. -/
def isWrapped (kinds : List Bracket) (t : Text) : Bool :=
  match t with
  | c :: d :: rest =>
    match Bracket.ofOpener? c with
    | some b => kinds.contains b && (d :: rest).getLast? == some b.closer && wraps (depths t)
    | none => false
  | _ => false

theorem length_inner_lt {kinds : List Bracket} {t : Text} (h : isWrapped kinds t = true) :
    t.inner.length < t.length := by
  match t with
  | [] => simp [isWrapped] at h
  | [_] => simp [isWrapped] at h
  | _ :: _ :: _ => simp only [inner, List.length_dropLast, List.length_tail, List.length_cons]; omega

/-- The text without the bracket pairs of the given kinds that wrap all of it, and without the blanks beside
them. -/
def peel (kinds : List Bracket) (t : Text) : Text :=
  if _h : isWrapped kinds t.trim = true then peel kinds t.trim.inner else t.trim
termination_by t.length
decreasing_by exact Nat.lt_of_lt_of_le (length_inner_lt _h) (length_trim_le t)

/-- The text of a value without the brackets around it. -/
def bare (t : Text) : Text :=
  peel Bracket.ofValues t

/-- The text of a condition without the brackets around it. -/
def bareCondition (t : Text) : Text :=
  peel Bracket.all t

/-- All characters at the first `n` places lie outside all groups. -/
def isOutside (n : Nat) (ds : List Nat) : Bool :=
  (ds.take n).all (· == 0)

/-- The trimmed sides of a cut, if both have something. -/
def sides? (left right : Text) : Option (Text × Text) :=
  if left.trim = [] || right.trim = [] then none else some (left.trim, right.trim)

/-- The first cut of `rest` at `separator`, where `before` holds, last first, what stands in front of `rest`, and
`ds` the depths of `rest`. -/
def cutAt (separator : Text) : (before rest : Text) → (ds : List Nat) → Option (Text × Text)
  | before, c :: rest, d :: ds =>
    if separator.isPrefixOf (c :: rest) && isOutside separator.length (d :: ds) then
      sides? before.reverse ((c :: rest).drop separator.length) <|> cutAt separator (c :: before) rest ds
    else
      cutAt separator (c :: before) rest ds
  | _, _, _ => none

/-- The two sides of the first `word` outside all brackets that stands between two spaces and has something on
both sides. -/
def splitAtWord (word t : Text) : Option (Text × Text) :=
  cutAt (' ' :: word ++ [' ']) [] t t.depths

end Text

end BlockScript
