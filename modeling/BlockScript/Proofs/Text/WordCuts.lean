import BlockScript.Proofs.Text.Trim

/-!
# Cuts at a word

`Text.splitAtWord` cuts a text at the leftmost place where the word stands between two spaces, outside of all groups and
with more than blanks on both sides (`Text.IsCut`); the scan goes on one character behind each place that it refuses, so
that occurrences may overlap (`Text.cutAt_cases`).  Whether an angle sign is a bracket depends on its neighbours, which
a cut and the trimming behind it take away.  Still the depths of each side are those that it has in the whole text
(`Text.depths_part`): only blanks are taken away beside it, and no group is open in front of it.
-/

namespace BlockScript.Text

/-! ### Parts of a text -/

section Depths

variable {groups : List Bracket} {previous : Option Char} {t u : Text}

/-- A blank behind a character opens no more than the end of the text does. -/
private theorem turned_blank (groups : List Bracket) (previous : Option Char) (c : Char)
    (h : ∀ d ∈ u.head?, isBlank d = true) : turned groups previous c u.head? = turned groups previous c none := by
  have hopening : Bracket.opening c u.head? = Bracket.opening c none := by
    cases u with
    | nil => rfl
    | cons d u => simp [Bracket.opening, Bracket.holdsBeside, h d rfl]
  unfold turned turn
  rw [hopening]

/-- Text behind a part does not change its depths if it begins with a blank. -/
theorem take_depthsWithin (h : ∀ d ∈ u.head?, isBlank d = true) :
    (depthsWithin groups groups.length previous (t ++ u)).take t.length =
      depthsWithin groups groups.length previous t := by
  induction t generalizing groups previous with
  | nil => rfl
  | cons c t ih =>
    have hturned : turned groups previous c (t ++ u).head? = turned groups previous c t.head? := by
      cases t with
      | nil => exact turned_blank groups previous c h
      | cons d t => rfl
    rw [List.cons_append, depthsWithin_cons, hturned, List.length_cons, List.take_succ_cons, ih, ← depthsWithin_cons]

/-- Where no group is open, it does not matter for the depths what stands in front. -/
theorem depthsWithin_nil_congr (previous previous' : Option Char) (t : Text) :
    depthsWithin [] 0 previous t = depthsWithin [] 0 previous' t := by
  cases t with
  | nil => rfl
  | cons c t => rfl

/-- A part in front of which no group is open and behind which a blank stands has its depths on its own. -/
theorem depths_part {front part behind : Text} (hfront : opened [] none front (part ++ behind).head? = [])
    (hbehind : ∀ d ∈ behind.head?, isBlank d = true) :
    part.depths = ((front ++ (part ++ behind)).depths.drop front.length).take part.length := by
  have hdrop := drop_depthsWithin [] none front (part ++ behind)
  rw [hfront] at hdrop
  rw [depths, depths, show (0 : Nat) = ([] : List Bracket).length from rfl, hdrop, take_depthsWithin hbehind]
  exact depthsWithin_nil_congr none _ part

end Depths

/-! ### The leftmost cut -/

/-- A separator stands in a text outside of all groups, and on both sides there is more than blanks. -/
structure IsCut (separator t front behind : Text) : Prop where
  text : t = front ++ (separator ++ behind)
  outside : ∀ d ∈ (t.depths.drop front.length).take separator.length, d = 0
  left : ∃ c ∈ front, isBlank c = false
  right : ∃ c ∈ behind, isBlank c = false

section Scan

variable {separator t front behind : Text}

theorem isOutside_eq_true_iff {n : Nat} {ds : List Nat} : isOutside n ds = true ↔ ∀ d ∈ ds.take n, d = 0 := by
  simp [isOutside]

theorem sides?_eq_none_iff {left right : Text} :
    sides? left right = none ↔ ¬((∃ c ∈ left, isBlank c = false) ∧ ∃ c ∈ right, isBlank c = false) := by
  rw [← trim_ne_nil_iff, ← trim_ne_nil_iff, ← not_or, not_not, sides?]
  by_cases h : left.trim = [] ∨ right.trim = []
  · simp [h]
  · simp [not_or.1 h]

theorem sides?_eq_some {left right : Text} (h : sides? left right ≠ none) :
    sides? left right = some (left.trim, right.trim) := by
  unfold sides? at h ⊢
  split at h
  · exact absurd rfl h
  · rename_i hsides
    exact if_neg hsides

/-- A cut lies where the separator is next, its characters lie outside, and both sides are taken. -/
theorem isCut_iff {before rest : Text} (ht : t = before.reverse ++ rest) :
    IsCut separator t before.reverse behind ↔ separator ++ behind = rest ∧
      isOutside separator.length (t.depths.drop before.length) = true ∧ sides? before.reverse behind ≠ none := by
  rw [isOutside_eq_true_iff, ne_eq, sides?_eq_none_iff, not_not]
  constructor
  · rintro ⟨htext, houtside, hleft, hright⟩
    rw [List.length_reverse] at houtside
    exact ⟨(List.append_cancel_left (ht.symm.trans htext)).symm, houtside, hleft, hright⟩
  · rintro ⟨htext, houtside, hleft, hright⟩
    exact ⟨htext ▸ ht, by rwa [List.length_reverse], hleft, hright⟩

/-- The scan takes a cut at the place that it has reached, and goes on behind it if there is none. -/
theorem cutAt_cons_cases (separator before : Text) (c : Char) (rest : Text) (ht : t = before.reverse ++ c :: rest) :
    (∃ behind, IsCut separator t before.reverse behind ∧
      cutAt separator before (c :: rest) (t.depths.drop before.length) = some (trim before.reverse, trim behind)) ∨
    (∀ behind, ¬IsCut separator t before.reverse behind) ∧
      cutAt separator before (c :: rest) (t.depths.drop before.length) =
        cutAt separator (c :: before) rest (t.depths.drop (c :: before).length) := by
  obtain ⟨d, -, hdepths⟩ := exists_drop_depths ht
  by_cases hplace : separator.isPrefixOf (c :: rest) && isOutside separator.length (t.depths.drop before.length)
  · obtain ⟨hword, houtside⟩ := Bool.and_eq_true_iff.1 hplace
    obtain ⟨behind, hbehind⟩ := List.isPrefixOf_iff_prefix.1 hword
    have hcut : cutAt separator before (c :: rest) (t.depths.drop before.length) =
        (sides? before.reverse behind).or
          (cutAt separator (c :: before) rest (t.depths.drop (c :: before).length)) := by
      rw [hdepths] at hplace ⊢
      rw [cutAt, if_pos hplace, ← hbehind, List.drop_left]
      exact Option.orElse_eq_or
    by_cases hsides : sides? before.reverse behind = none
    · refine .inr ⟨fun behind' h => ?_, by rw [hcut, hsides, Option.none_or]⟩
      obtain ⟨hbehind', -, hsides'⟩ := (isCut_iff ht).1 h
      exact hsides' (List.append_cancel_left (hbehind'.trans hbehind.symm) ▸ hsides)
    · refine .inl ⟨behind, (isCut_iff ht).2 ⟨hbehind, houtside, hsides⟩, ?_⟩
      rw [hcut, sides?_eq_some hsides, Option.some_or]
  · refine .inr ⟨fun behind h => hplace ?_, by rw [hdepths] at hplace ⊢; rw [cutAt, if_neg hplace]⟩
    obtain ⟨hbehind, houtside, -⟩ := (isCut_iff ht).1 h
    exact Bool.and_eq_true_iff.2 ⟨List.isPrefixOf_iff_prefix.2 ⟨behind, hbehind⟩, houtside⟩

/-- From each place on, the scan finds the leftmost cut if there is any. -/
theorem cutAt_cases (separator before rest : Text) (ht : t = before.reverse ++ rest) :
    (∃ front behind, IsCut separator t front behind ∧
      (∀ front' behind', IsCut separator t front' behind' → before.length ≤ front'.length →
        front.length ≤ front'.length) ∧
      cutAt separator before rest (t.depths.drop before.length) = some (front.trim, behind.trim)) ∨
    (∀ front behind, IsCut separator t front behind → front.length < before.length) ∧
      cutAt separator before rest (t.depths.drop before.length) = none := by
  induction rest generalizing before with
  | nil =>
    refine .inr ⟨fun front behind h => ?_, by rw [cutAt]; simp⟩
    obtain ⟨c, hc, -⟩ := h.right
    have hlength := congrArg List.length (ht.symm.trans h.text)
    have hpos := List.length_pos_of_mem hc
    simp only [List.append_nil, List.length_reverse, List.length_append] at hlength
    omega
  | cons c rest ih =>
    rcases cutAt_cons_cases separator before c rest ht with ⟨behind, h, hcut⟩ | ⟨hnone, hcut⟩
    · exact .inl ⟨before.reverse, behind, h, fun front' _ _ hle => by rwa [List.length_reverse], hcut⟩
    · -- a cut that does not lie here lies in front of this place or behind it
      have hne {front behind : Text} (h : IsCut separator t front behind) : front.length ≠ before.length := by
        intro hlength
        have heq := List.append_inj_left (ht.symm.trans h.text) (by rw [List.length_reverse, hlength])
        exact hnone behind (heq ▸ h)
      rw [hcut]
      rcases ih (c :: before) (by rw [ht, List.reverse_cons, List.append_assoc]; rfl) with
        ⟨front, behind, h, hfirst, hsome⟩ | ⟨hbefore, hnone'⟩
      · refine .inl ⟨front, behind, h, fun front' behind' h' hle => hfirst front' behind' h' ?_, hsome⟩
        exact Nat.lt_of_le_of_ne hle (hne h').symm
      · refine .inr ⟨fun front behind h => ?_, hnone'⟩
        exact Nat.lt_of_le_of_ne (Nat.le_of_lt_succ (hbefore front behind h)) (hne h)

end Scan

/-! ### Depths of the sides -/

/-- The number of blanks in front of a text. -/
def margin (t : Text) : Nat :=
  (t.takeWhile isBlank).length

section Sides

variable {separator word t front behind : Text}

/-- Trimming keeps the depths of a part in front of which no group is open and behind which a blank stands. -/
private theorem depths_trim_part {part : Text} (hfront : opened [] none front (part ++ behind).head? = [])
    (hbehind : ∀ d ∈ behind.head?, isBlank d = true) :
    part.trim.depths =
      ((front ++ (part ++ behind)).depths.drop (front.length + part.margin)).take part.trim.length := by
  obtain ⟨v, hpart, hv⟩ := exists_takeWhile_trim part
  have hblanks : ∀ c ∈ part.takeWhile isBlank, isBlank c = true :=
    fun c hc => List.all_eq_true.1 List.all_takeWhile c hc
  have htext : front ++ (part ++ behind) = (front ++ part.takeWhile isBlank) ++ (part.trim ++ (v ++ behind)) := by
    conv => lhs; rw [hpart]
    simp only [List.append_assoc]
  have hfront' : opened [] none (front ++ part.takeWhile isBlank) (part.trim ++ (v ++ behind)).head? = [] := by
    have hhead : (part.takeWhile isBlank).head?.or (part.trim ++ (v ++ behind)).head? = (part ++ behind).head? := by
      rw [← List.head?_append]
      conv => rhs; rw [hpart]
      simp only [List.append_assoc]
    rw [opened_append, opened_of_not_bracket fun c hc => not_bracket_of_isBlank (hblanks c hc), hhead, hfront]
  have hbehind' : ∀ d ∈ (v ++ behind).head?, isBlank d = true := by
    intro d hd
    rw [List.head?_append] at hd
    rcases Option.or_eq_some_iff.1 hd with hd | ⟨-, hd⟩
    · exact hv d (List.mem_of_head? hd)
    · exact hbehind d hd
  rw [htext, margin, ← List.length_append]
  exact depths_part hfront' hbehind'

/-- Behind a separator that ends with a blank no group is open. -/
private theorem IsCut.opened_eq_nil (h : IsCut (separator ++ [' ']) t front behind) (next : Option Char) :
    opened [] none (front ++ (separator ++ [' '])) next = [] := by
  have htext : t = (front ++ separator) ++ ' ' :: behind := by
    rw [h.text]
    simp
  have hdepth : (opened [] none (front ++ separator) (some ' ')).length = 0 := by
    refine h.outside _ (List.mem_of_getElem? (i := separator.length) ?_)
    rw [List.getElem?_take_of_lt (by simp), List.getElem?_drop, ← List.length_append, htext]
    exact getElem?_depths rfl rfl _ _
  rw [← List.append_assoc, opened_append, List.head?_cons, Option.some_or, List.eq_nil_of_length_eq_zero hdepth]
  exact opened_of_not_bracket (forall_of_all (by decide))

/-- Beside a word between two spaces, the depths of both sides are those of the whole text. -/
private theorem IsCut.depths_sides (h : IsCut (' ' :: word ++ [' ']) t front behind) :
    front.trim.depths = (t.depths.drop front.margin).take front.trim.length ∧
      behind.trim.depths =
        (t.depths.drop (front.length + (word.length + 2) + behind.margin)).take behind.trim.length := by
  constructor
  · have hleft := @depths_trim_part [] (' ' :: word ++ [' '] ++ behind) front rfl (by rintro d ⟨⟩; rfl)
    rw [List.nil_append, ← h.text, List.length_nil, Nat.zero_add] at hleft
    exact hleft
  · have hright := @depths_trim_part (front ++ (' ' :: word ++ [' '])) [] behind (h.opened_eq_nil _)
      (by rintro d ⟨⟩)
    rw [List.append_nil, List.append_assoc, ← h.text] at hright
    simpa using hright

/-- A text is split at the leftmost place where the word stands between two spaces, outside of all groups and with more
than blanks on both sides, if there is one, and each side has the depths that it has in the whole text. -/
theorem splitAtWord_leftmost (word t : Text) :
    ((splitAtWord word t).isSome ↔ ∃ front behind, IsCut (' ' :: word ++ [' ']) t front behind) ∧
    ∀ left right, splitAtWord word t = some (left, right) → ∃ front behind,
      IsCut (' ' :: word ++ [' ']) t front behind ∧
      (∀ front' behind', IsCut (' ' :: word ++ [' ']) t front' behind' → front.length ≤ front'.length) ∧
      left = front.trim ∧ right = behind.trim ∧
      left.depths = (t.depths.drop front.margin).take left.length ∧
      right.depths = (t.depths.drop (front.length + (word.length + 2) + behind.margin)).take right.length := by
  rcases cutAt_cases (' ' :: word ++ [' ']) [] t rfl with ⟨front, behind, h, hfirst, hsome⟩ | ⟨hnone, hcut⟩
  · have hsplit : splitAtWord word t = some (front.trim, behind.trim) := hsome
    refine ⟨⟨fun _ => ⟨front, behind, h⟩, fun _ => by rw [hsplit]; rfl⟩, fun left right hsides => ?_⟩
    obtain ⟨rfl, rfl⟩ := Prod.mk.inj (Option.some.inj (hsplit.symm.trans hsides))
    exact ⟨front, behind, h, fun front' behind' h' => hfirst front' behind' h' (Nat.zero_le _), rfl, rfl,
      h.depths_sides⟩
  · have hsplit : splitAtWord word t = none := hcut
    refine ⟨⟨fun hsome => ?_, fun ⟨front, behind, h⟩ => ?_⟩, fun left right hsome => ?_⟩
    · rw [hsplit] at hsome
      cases hsome
    · exact absurd (hnone front behind h) (Nat.not_lt_zero _)
    · rw [hsplit] at hsome
      cases hsome

/-- The first word has nothing in front of it, the second one stands in brackets, and the third one shares a space with
the fourth. -/
theorem splitAtWord_leftmost_overlap :
    splitAtWord "and".toList " and (a and b) and and c".toList =
      some ("and (a and b)".toList, "and c".toList) ∧
    ∃ front behind, IsCut " and ".toList " and (a and b) and and c".toList front behind ∧
      (∀ front' behind', IsCut " and ".toList " and (a and b) and and c".toList front' behind' →
        front.length ≤ front'.length) ∧
      "and (a and b)".toList = front.trim ∧ "and c".toList = behind.trim ∧
      depths "and (a and b)".toList =
        ((depths " and (a and b) and and c".toList).drop front.margin).take 13 ∧
      depths "and c".toList =
        ((depths " and (a and b) and and c".toList).drop (front.length + 5 + behind.margin)).take 5 :=
  have hsplit : splitAtWord "and".toList " and (a and b) and and c".toList =
      some ("and (a and b)".toList, "and c".toList) := by decide
  ⟨hsplit, (splitAtWord_leftmost "and".toList " and (a and b) and and c".toList).2 _ _ hsplit⟩

end Sides

end BlockScript.Text
