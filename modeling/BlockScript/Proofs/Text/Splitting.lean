import BlockScript.Proofs.Phrase.Arithmetic

/-!
# Cuts outside of brackets

Texts are split where the depths say that no group is open (`Text.exists_of_splitAtWord`).  The depths count angle
signs too, and a closer that does not fit is passed over; still, up to such a place at least as many round and square
brackets have closed a group as opened one (`Text.openers_le_of_opened`).  So the two sides of a cut are balanced if the whole text is (`Text.CutAt.balanced`).
Arithmetic (`Arithmetic.cutAt_of_split`) and words between blanks (`Text.cutAt_of_splitAtWord`) are cut in this way.
-/

namespace BlockScript

namespace Text

/-! ### Blanks -/

theorem isBracket_of_isBlank {c : Char} (h : isBlank c = true) : isBracket c = false := by
  by_contra hc
  simp only [isBracket, Bool.not_eq_false, Bool.or_eq_true, decide_eq_true_eq] at hc
  rcases hc with ((rfl | rfl) | rfl) | rfl <;> revert h <;> decide

theorem brackets_dropWhile {p : Char → Bool} (hp : ∀ c, p c = true → isBracket c = false) (t : Text) :
    brackets (t.dropWhile p) = t.brackets := by
  induction t with
  | nil => rfl
  | cons c t ih =>
    cases hc : p c with
    | true =>
      have hbracket : ¬isBracket c = true := by simp [hp c hc]
      rw [List.dropWhile_cons_of_pos hc, ih, brackets, brackets, List.filter_cons_of_neg hbracket]
    | false => rw [List.dropWhile_cons_of_neg (by simp [hc])]

theorem brackets_reverse (t : Text) : brackets t.reverse = (t.brackets).reverse :=
  List.filter_reverse

theorem brackets_trimLeft (t : Text) : t.trimLeft.brackets = t.brackets :=
  brackets_dropWhile (fun _ => isBracket_of_isBlank) t

theorem brackets_trimRight (t : Text) : t.trimRight.brackets = t.brackets := by
  rw [trimRight, brackets_reverse, brackets_dropWhile fun _ => isBracket_of_isBlank, brackets_reverse,
    List.reverse_reverse]

theorem brackets_trim (t : Text) : t.trim.brackets = t.brackets := by
  rw [trim, brackets_trimRight, brackets_trimLeft]

theorem balanced_trim_iff (t : Text) : Balanced t.trim ↔ Balanced t :=
  balanced_iff_of_brackets (brackets_trim t)

/-! ### Cuts -/

/-- A text is cut at a word in front of which no group is open. -/
structure CutAt (t left right : Text) : Prop where
  cut : ∃ front word behind, t = front ++ (word ++ behind) ∧ word.brackets = [] ∧ front.openers ≤ front.closers ∧
    left = front.trim ∧ right = behind.trim

theorem CutAt.balanced {t left right : Text} (h : CutAt t left right) (ht : Balanced t) :
    Balanced left ∧ Balanced right := by
  obtain ⟨front, word, behind, rfl, hword, hcount, rfl, rfl⟩ := h.cut
  rw [balanced_trim_iff, balanced_trim_iff]
  exact ht.of_append hword hcount

/-- The first cut at a separator lies where no group is open, if the separator does not begin with a bracket. -/
private theorem exists_of_cutAt {separator : Text} {d : Char} (hfirst : separator.head? = some d)
    (hbracket : Bracket.ofOpener? d = none ∧ Bracket.ofCloser? d = none) (ahead : Text) :
    ∀ (before : Text) (groups : List Bracket) (previous : Option Char) (left right : Text),
      cutAt separator before ahead (depthsWithin groups groups.length previous ahead) = some (left, right) →
        ∃ (front behind : Text), ahead = front ++ (separator ++ behind) ∧ opened groups previous front (some d) = [] ∧
          left = trim (before.reverse ++ front) ∧ right = behind.trim := by
  obtain ⟨word, rfl⟩ := List.head?_eq_some_iff.1 hfirst
  induction ahead with
  | nil =>
    intro before groups previous left right h
    cases h
  | cons c ahead ih =>
    intro before groups previous left right h
    rw [depthsWithin_cons, cutAt] at h
    have hlater (h : cutAt (d :: word) (c :: before) ahead (depthsWithin (turned groups previous c ahead.head?)
        (turned groups previous c ahead.head?).length (some c) ahead) = some (left, right)) :
        ∃ (front behind : Text), c :: ahead = front ++ (d :: word ++ behind) ∧ opened groups previous front (some d) = [] ∧
          left = trim (before.reverse ++ front) ∧ right = behind.trim := by
      obtain ⟨front, behind, rfl, hopened, rfl, rfl⟩ := ih _ _ _ _ _ h
      have hhead : (front ++ (d :: word ++ behind)).head? = front.head?.or (some d) := List.head?_append
      rw [hhead] at hopened
      exact ⟨c :: front, behind, rfl, hopened, by rw [List.reverse_cons, List.append_assoc]; rfl, rfl⟩
    split at h
    · rename_i hplace
      obtain ⟨hword, houtside⟩ := Bool.and_eq_true_iff.1 hplace
      obtain ⟨behind, hbehind⟩ := List.isPrefixOf_iff_prefix.1 hword
      rw [← hbehind, List.drop_left, Option.orElse_apply, Option.orElse_eq_or] at h
      rcases Option.or_eq_some_iff.1 h with hsides | ⟨-, h⟩
      · -- the separator begins where the depth is zero, and its first character opens and closes nothing
        obtain rfl : d = c := (List.cons.inj hbehind).1
        have hdepth := of_decide_eq_true (List.all_eq_true.1 houtside _ List.mem_cons_self)
        rw [turned_of_not_bracket hbracket.1 hbracket.2, Nat.min_self] at hdepth
        unfold sides? at hsides
        split at hsides
        · cases hsides
        · obtain ⟨rfl, rfl⟩ := Prod.mk.inj (Option.some.inj hsides)
          exact ⟨[], behind, hbehind.symm, List.eq_nil_of_length_eq_zero hdepth, by rw [List.append_nil], rfl⟩
      · exact hlater h
    · exact hlater h

/-- A text is split at a word between blanks in front of which no group is open. -/
theorem exists_of_splitAtWord {word t left right : Text} (h : splitAtWord word t = some (left, right)) :
    ∃ (front behind : Text), t = front ++ ((' ' :: word ++ [' ']) ++ behind) ∧ opened [] none front (some ' ') = [] ∧
      left = front.trim ∧ right = behind.trim :=
  exists_of_cutAt rfl ⟨rfl, rfl⟩ t [] [] none left right h

/-- A word between blanks splits a text outside of all groups. -/
theorem cutAt_of_splitAtWord {word t left right : Text} (hword : word.brackets = [])
    (h : splitAtWord word t = some (left, right)) : CutAt t left right := by
  obtain ⟨front, behind, rfl, hopened, rfl, rfl⟩ := exists_of_splitAtWord h
  have hseparator : brackets (' ' :: word ++ [' ']) = [] := by
    rw [List.cons_append, brackets, List.filter_cons_of_neg (by decide)]
    exact (brackets_append word [' ']).trans (by rw [hword]; rfl)
  exact ⟨front, _, behind, rfl, hseparator, openers_le_of_opened hopened, rfl, rfl⟩

end Text

namespace Arithmetic

open Text

/-- Arithmetic is split outside of all groups. -/
theorem cutAt_of_split {t : Text} {cut : Cut} (h : split? t = some cut) : CutAt t cut.left cut.right := by
  obtain ⟨before, o, after, rfl, hstands, -, -, rfl⟩ := exists_of_split? h
  have hopened := (outside_iff hstands.mem before after).1 hstands.outside
  have hsign : o.sign.brackets = [] := by
    refine List.filter_eq_nil_iff.2 fun c hc hbracket => ?_
    have hedge := ((sign_of_mem hstands.mem).2 c hc).1
    rw [isEdge_of_isBracket hbracket] at hedge
    cases hedge
  exact ⟨before, o.sign, after, rfl, hsign, openers_le_of_opened hopened, rfl, rfl⟩

end Arithmetic

end BlockScript
