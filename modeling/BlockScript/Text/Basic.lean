/-!
# Texts and blanks

A text is a list of characters, so that every function on it is a recursion on its characters.  Blanks are the
white space characters of Unicode; `trim` drops them at both ends.
-/

namespace BlockScript

/-- A text as the sequence of its characters. -/
abbrev Text := List Char

/-- The code points in `lo .. hi`, for each pair `(lo, hi)`. -/
def inRanges (ranges : List (Nat × Nat)) (n : Nat) : Bool :=
  ranges.any fun range => range.1 ≤ n && n ≤ range.2

/-- The ranges of the white space characters, in ascending order. -/
def blankRanges : List (Nat × Nat) :=
  [(0x09, 0x0D), (0x1C, 0x20), (0x85, 0x85), (0xA0, 0xA0), (0x1680, 0x1680), (0x2000, 0x200A),
    (0x2028, 0x2029), (0x202F, 0x202F), (0x205F, 0x205F), (0x3000, 0x3000)]

/-- A blank is a white space character of Unicode, or one of the four separators `1C` to `1F`. -/
def isBlank (c : Char) : Bool :=
  inRanges blankRanges c.toNat

namespace Text

/-- The text without its leading blanks. -/
def trimLeft (t : Text) : Text :=
  t.dropWhile isBlank

/-- The text without its trailing blanks. -/
def trimRight (t : Text) : Text :=
  (t.reverse.dropWhile isBlank).reverse

/-- The text without its leading and trailing blanks. -/
def trim (t : Text) : Text :=
  t.trimLeft.trimRight

/-- Whether the text holds nothing but blanks. -/
def isAllBlank (t : Text) : Bool :=
  t.all isBlank

/-- The rest of a text that begins with `start`. -/
def after? (start : Text) (t : Text) : Option Text :=
  if start.isPrefixOf t then some (t.drop start.length) else none

theorem after?_eq_some_iff {start t rest : Text} : after? start t = some rest ↔ t = start ++ rest := by
  unfold after?
  constructor
  · intro h
    split at h
    · rename_i hp
      obtain ⟨tail, rfl⟩ := List.isPrefixOf_iff_prefix.mp hp
      simpa using h
    · cases h
  · rintro rfl
    rw [if_pos (List.isPrefixOf_iff_prefix.mpr (List.prefix_append start rest)), List.drop_left]

theorem length_trimLeft_le (t : Text) : t.trimLeft.length ≤ t.length :=
  (List.dropWhile_sublist isBlank).length_le

theorem length_trimRight_le (t : Text) : t.trimRight.length ≤ t.length := by
  have h := (List.dropWhile_sublist isBlank (l := t.reverse)).length_le
  simpa [trimRight] using h

theorem length_trim_le (t : Text) : t.trim.length ≤ t.length :=
  Nat.le_trans (length_trimRight_le _) (length_trimLeft_le _)

end Text

end BlockScript
