import BlockScript.Bracket
import BlockScript.Diagnostic
import BlockScript.Text.Alphanumeric
import BlockScript.Text.Quoted
import BlockScript.Vocabulary.Form
import BlockScript.Vocabulary.Slot

/-!
# Patterns

A pattern is the canonical spelling of an operation.  Its placeholders stand for slots:

    (NAME)  [NAME]        a value
    (NAME v)  [NAME v]    an entry of a dropdown
    <NAME>                a condition

Everything else is spelled as it is, except that a question mark may be left out, and that blanks stand for any
blanks, or for none beside a sign.

* `Pattern.segments` cuts a pattern into its parts, and `flatMap_written_segments` says that they spell it;
* `Pattern.form` gives the form that a pattern stands for.
-/

namespace BlockScript

/-- A placeholder: its brackets, the name of its slot, and whether it has the mark of a dropdown. -/
structure Placeholder where
  bracket : Bracket
  name : Text
  dropdown : Bool
  deriving DecidableEq, Repr

namespace Placeholder

/-- The placeholder with a text in the place of its name. -/
def fill (p : Placeholder) (inside : Text) : Text :=
  p.bracket.opener :: inside ++ (if p.dropdown then [' ', 'v'] else []) ++ [p.bracket.closer]

/-- The placeholder as it is written. -/
def written (p : Placeholder) : Text :=
  p.fill p.name

end Placeholder

/-- A part of a pattern: some text, or a placeholder. -/
inductive Segment where
  | spelled (t : Text)
  | slot (p : Placeholder)
  deriving DecidableEq, Repr

/-- The part of a pattern as it is written. -/
def Segment.written : Segment → Text
  | spelled t => t
  | slot p => p.written

/-- Why a pattern stands for no form. -/
inductive PatternFault where
  | unknownSlot (pattern slot : Text)
  | repeatedSlot
  deriving DecidableEq, Repr

namespace PatternFault

/-- The kind of a fault. -/
def kind : PatternFault → FaultKind
  | unknownSlot _ _ => .wrongValue
  | repeatedSlot => .badPattern

/-- The words for a fault. -/
def reason : PatternFault → String
  | unknownSlot pattern slot =>
    s!"Pattern {String.ofList pattern.quoted} names unknown slot '{String.ofList slot}'."
  | repeatedSlot => "A slot is named twice."

end PatternFault

namespace Pattern

/-- A character of the name of a slot, from the second one on. -/
def isNameChar (c : Char) : Bool :=
  c.isUpper || c.isDigit || c == '_'

/-- The placeholder in the given brackets whose name begins the text.  Angle brackets hold no dropdown. -/
def placeholderIn? (b : Bracket) (t : Text) : Option Placeholder :=
  let name := t.takeWhile isNameChar
  let rest := t.dropWhile isNameChar
  if !name.head?.any Char.isUpper then none
  else if [b.closer].isPrefixOf rest then some ⟨b, name, false⟩
  else if b != .angle && [' ', 'v', b.closer].isPrefixOf rest then some ⟨b, name, true⟩
  else none

/-- The placeholder at the beginning of a text. -/
def placeholder? : Text → Option Placeholder
  | c :: t => (Bracket.ofOpener? c).bind (placeholderIn? · t)
  | [] => none

/-- The segments of a pattern whose next `skip` characters belong to a placeholder; `spelled` holds, last first,
the text in front of it. -/
def segmentsFrom (skip : Nat) (spelled : Text) : Text → List Segment
  | [] => [.spelled spelled.reverse]
  | c :: t =>
    match skip with
    | skip + 1 => segmentsFrom skip spelled t
    | 0 =>
      match placeholder? (c :: t) with
      | some p => .spelled spelled.reverse :: .slot p :: segmentsFrom (p.written.length - 1) [] t
      | none => segmentsFrom 0 (c :: spelled) t

/-- The segments of a pattern: spelled text and placeholders in turn. -/
def segments (t : Text) : List Segment :=
  segmentsFrom 0 [] t

private theorem written_of_placeholderIn? {b : Bracket} {t : Text} {p : Placeholder}
    (h : placeholderIn? b t = some p) : p.written <+: b.opener :: t := by
  have hsplit : t.takeWhile isNameChar ++ t.dropWhile isNameChar = t := List.takeWhile_append_dropWhile
  simp only [placeholderIn?] at h
  split at h
  · cases h
  · split at h
    · rename_i hp
      obtain ⟨rest, hrest⟩ := List.isPrefixOf_iff_prefix.mp hp
      cases h
      exact ⟨rest, by
        simp only [Placeholder.written, Placeholder.fill]
        conv => rhs; rw [← hsplit, ← hrest]
        simp⟩
    · split at h
      · rename_i hp
        rw [Bool.and_eq_true] at hp
        obtain ⟨rest, hrest⟩ := List.isPrefixOf_iff_prefix.mp hp.2
        cases h
        exact ⟨rest, by
          simp only [Placeholder.written, Placeholder.fill]
          conv => rhs; rw [← hsplit, ← hrest]
          simp⟩
      · cases h

/-- A text begins with its placeholder as it is written. -/
theorem written_prefix_of_placeholder? {t : Text} {p : Placeholder} (h : placeholder? t = some p) :
    p.written <+: t := by
  match t, h with
  | c :: t, h =>
    simp only [placeholder?, Option.bind_eq_some_iff] at h
    obtain ⟨b, hb, h⟩ := h
    rw [Bracket.ofOpener?_eq_some_iff.mp hb]
    exact written_of_placeholderIn? h

private theorem written_segmentsFrom (t : Text) : ∀ (skip : Nat) (spelled : Text), skip = 0 ∨ spelled = [] →
    (segmentsFrom skip spelled t).flatMap Segment.written = spelled.reverse ++ t.drop skip := by
  induction t with
  | nil => intro skip spelled _; simp [segmentsFrom, Segment.written]
  | cons c t ih =>
    intro skip spelled hs
    match skip, hs with
    | skip + 1, hs =>
      obtain rfl : spelled = [] := hs.resolve_left (Nat.succ_ne_zero skip)
      simpa [segmentsFrom] using ih skip [] (.inr rfl)
    | 0, _ =>
      simp only [segmentsFrom]
      split
      · rename_i p hp
        obtain ⟨rest, hrest⟩ := written_prefix_of_placeholder? hp
        have hlen : p.written.length = p.written.length - 1 + 1 := by
          simp [Placeholder.written, Placeholder.fill]
        have hdrop : t.drop (p.written.length - 1) = rest := by
          rw [← List.drop_succ_cons (a := c), ← hlen, ← hrest, List.drop_left]
        rw [List.flatMap_cons, List.flatMap_cons, ih _ [] (.inr rfl), hdrop, List.drop_zero, ← hrest]
        rfl
      · rw [ih 0 (c :: spelled) (.inl rfl)]
        simp

/-- The segments spell the pattern. -/
theorem flatMap_written_segments (t : Text) : (segments t).flatMap Segment.written = t :=
  written_segmentsFrom t 0 [] (.inl rfl)

/-- The form of spelled text behind the character `previous`.  Blanks between two letters or digits must show as
blanks, other blanks may. -/
def spelledForm (previous : Option Char) : Text → Form
  | [] => []
  | c :: t =>
    if isBlank c then
      match t with
      | [] => [.gap false]
      | d :: _ =>
        if isBlank d then spelledForm previous t
        else .gap (previous.any isAlphanumeric && isAlphanumeric d) :: spelledForm none t
    else
      (if c = '?' then .optional [c] else .oneOf [c]) :: spelledForm (some c) t

/-- The form of a slot.  A choice needs no brackets; the brackets of a value need not match. -/
def slotForm (slot : Slot) (dropdown : Bool) : Form :=
  match slot.kind with
  | .choice options =>
    let words := if options = [] then [[]] else Form.longestFirst (options.map String.toList)
    [.optional ['(', '['], .word slot.name words, .marker, .optional [')', ']']]
  | .boolean => [.oneOf ['<'], .shortest slot.name, .oneOf ['>']]
  | kind =>
    if dropdown || kind.isDropdown then
      [.oneOf ['(', '['], .shortest slot.name, .marker, .oneOf [')', ']']]
    else
      [.oneOf ['(', '['], .shortest slot.name, .oneOf [')', ']']]

/-- The slot of a name; of several the last one counts. -/
def slotNamed? (slots : List Slot) (name : Text) : Option Slot :=
  slots.reverse.find? (·.name.toList == name)

/-- The form of one segment of a pattern. -/
def segmentForm (pattern : Text) (slots : List Slot) : Segment → Except PatternFault Form
  | .spelled t => .ok (spelledForm none t)
  | .slot p =>
    match slotNamed? slots p.name with
    | some slot => .ok (slotForm slot p.dropdown)
    | none => .error (.unknownSlot pattern p.name)

/-- The form that a pattern stands for.  All its slots must be known, and none may occur twice. -/
def form (slots : List Slot) (pattern : Text) : Except PatternFault Form := do
  let forms ← (segments pattern).mapM (segmentForm pattern slots)
  if (Form.slots forms.flatten).Nodup then .ok forms.flatten else .error .repeatedSlot

end Pattern

end BlockScript
