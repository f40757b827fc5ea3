import BlockScript.Proofs.Text.Tokens

/-!
# Blanks at the ends of a text

A text is its trimmed part with blanks at both ends (`Text.exists_trim`).  Blanks that are added there do not change
the trimmed part, and blanks in front of another character are told apart from what follows them.
-/

namespace BlockScript.Text

private theorem exists_trimLeft (t : Text) : ∃ v, t.trimLeft = t.trim ++ v ∧ ∀ c ∈ v, isBlank c = true := by
  refine ⟨(t.trimLeft.reverse.takeWhile isBlank).reverse, ?_, fun c hc => ?_⟩
  · rw [trim, trimRight, ← List.reverse_append, List.takeWhile_append_dropWhile, List.reverse_reverse]
  · exact List.all_eq_true.1 List.all_takeWhile c (List.mem_reverse.1 hc)

/-- The blanks in front of a text are followed by its trimmed part, and this by blanks. -/
theorem exists_takeWhile_trim (t : Text) : ∃ v, t = t.takeWhile isBlank ++ (t.trim ++ v) ∧
    ∀ c ∈ v, isBlank c = true := by
  obtain ⟨v, hv, hblanks⟩ := exists_trimLeft t
  have hleft : t.takeWhile isBlank ++ t.trimLeft = t := List.takeWhile_append_dropWhile
  exact ⟨v, by rw [← hv, hleft], hblanks⟩

/-- A text is its trimmed part with blanks at both ends. -/
theorem exists_trim (t : Text) : ∃ u v, t = u ++ (t.trim ++ v) ∧ (∀ c ∈ u, isBlank c = true) ∧
    ∀ c ∈ v, isBlank c = true := by
  obtain ⟨v, hv, hblanks⟩ := exists_takeWhile_trim t
  exact ⟨t.takeWhile isBlank, v, hv, fun c hc => List.all_eq_true.1 List.all_takeWhile c hc, hblanks⟩

private theorem head?_dropWhile {t : Text} {c : Char} (h : c ∈ (t.dropWhile isBlank).head?) : isBlank c = false := by
  have hnot := List.head?_dropWhile_not isBlank t
  rw [Option.mem_def.1 h] at hnot
  simpa using hnot

theorem isTrimmed_trim {t : Text} (h : t.trim ≠ []) : t.trim.IsTrimmed := by
  constructor
  · obtain ⟨v, hv, -⟩ := exists_trimLeft t
    obtain ⟨c, rest, htrim⟩ := List.exists_cons_of_ne_nil h
    refine ⟨c, rest, htrim, head?_dropWhile (t := t) ?_⟩
    rw [← trimLeft, hv, htrim]
    rfl
  · obtain ⟨d, rest, hlast⟩ := List.exists_cons_of_ne_nil (l := t.trimLeft.reverse.dropWhile isBlank)
      fun hnil => h (by rw [trim, trimRight, hnil]; rfl)
    refine ⟨rest.reverse, d, by rw [trim, trimRight, hlast, List.reverse_cons], ?_⟩
    exact head?_dropWhile (t := t.trimLeft.reverse) (by rw [hlast]; rfl)

/-- Something is left of a text exactly if it holds more than blanks. -/
theorem trim_ne_nil_iff {t : Text} : t.trim ≠ [] ↔ ∃ c ∈ t, isBlank c = false := by
  obtain ⟨u, v, ht, hu, hv⟩ := exists_trim t
  constructor
  · intro h
    obtain ⟨c, rest, hfirst, hc⟩ := (isTrimmed_trim h).first
    exact ⟨c, by rw [ht, hfirst]; simp, hc⟩
  · rintro ⟨c, hmem, hc⟩ hnil
    rw [ht, hnil, List.nil_append] at hmem
    have hblank := List.forall_mem_append.2 ⟨hu, hv⟩ c hmem
    rw [hc] at hblank
    cases hblank

theorem trim_append_blanks {t v : Text} (ht : t.IsTrimmed) (hv : ∀ c ∈ v, isBlank c = true) : trim (t ++ v) = t := by
  obtain ⟨c, rest, hfirst, hc⟩ := ht.first
  obtain ⟨front, d, hlast, hd⟩ := ht.last
  have hleft : trimLeft (t ++ v) = t ++ v := by
    rw [hfirst]
    exact List.dropWhile_cons_of_neg (by simp [hc])
  have hreverse : ∀ c ∈ v.reverse, isBlank c = true := fun c hc => hv c (List.mem_reverse.1 hc)
  rw [trim, hleft, trimRight, List.reverse_append, List.dropWhile_append_of_pos hreverse, hlast, List.reverse_append,
    List.reverse_singleton, List.singleton_append, List.dropWhile_cons_of_neg (by simp [hd]), List.reverse_cons,
    List.reverse_reverse]

theorem trim_blanks_append {u : Text} (hu : ∀ c ∈ u, isBlank c = true) (t : Text) : trim (u ++ t) = trim t := by
  rw [trim, trimLeft, List.dropWhile_append_of_pos hu, trim, trimLeft]

theorem trim_trim (t : Text) : t.trim.trim = t.trim := by
  by_cases h : t.trim = []
  · rw [h]
    rfl
  · exact trim_eq_self (isTrimmed_trim h)

/-- Behind a trimmed part, trimming takes blanks from the end only. -/
theorem exists_trim_append {t : Text} (ht : t.IsTrimmed) (u : Text) :
    ∃ w v, u = w ++ v ∧ (∀ c ∈ v, isBlank c = true) ∧ trim (t ++ u) = t ++ w := by
  obtain ⟨first, last, hu, hfirst, hlast⟩ := exists_trim u
  by_cases hnil : u.trim = []
  · have hblank : ∀ c ∈ u, isBlank c = true := by
      rw [hu, hnil]
      exact List.forall_mem_append.2 ⟨hfirst, hlast⟩
    exact ⟨[], u, rfl, hblank, by rw [trim_append_blanks ht hblank, List.append_nil]⟩
  · refine ⟨first ++ u.trim, last, by rwa [List.append_assoc], hlast, ?_⟩
    have happend := trim_append_blanks (ht.append (isTrimmed_trim hnil) first) hlast
    rwa [List.append_assoc, List.append_assoc, ← hu] at happend

/-- In front of a trimmed part, trimming takes blanks from the beginning only. -/
theorem exists_append_trim {t : Text} (ht : t.IsTrimmed) (u : Text) :
    ∃ v w, u = v ++ w ∧ (∀ c ∈ v, isBlank c = true) ∧ trim (u ++ t) = w ++ t := by
  obtain ⟨first, last, hu, hfirst, hlast⟩ := exists_trim u
  by_cases hnil : u.trim = []
  · have hblank : ∀ c ∈ u, isBlank c = true := by
      rw [hu, hnil]
      exact List.forall_mem_append.2 ⟨hfirst, hlast⟩
    exact ⟨u, [], (List.append_nil u).symm, hblank, by rw [trim_blanks_append hblank, trim_eq_self ht, List.nil_append]⟩
  · refine ⟨first, u.trim ++ last, hu, hfirst, ?_⟩
    have happend := trim_eq_self ((isTrimmed_trim hnil).append ht last)
    rw [← List.append_assoc] at happend
    calc
      trim (u ++ t) = trim (first ++ ((u.trim ++ last) ++ t)) := by rw [← List.append_assoc, ← hu]
      _ = (u.trim ++ last) ++ t := by rw [trim_blanks_append hfirst, happend]

/-- Blanks in front of other characters are told apart from these. -/
theorem append_blanks_inj {u u' t t' : Text} (hu : ∀ c ∈ u, isBlank c = true) (hu' : ∀ c ∈ u', isBlank c = true)
    (ht : ∀ c ∈ t.head?, isBlank c = false) (ht' : ∀ c ∈ t'.head?, isBlank c = false) (h : u ++ t = u' ++ t') :
    u = u' ∧ t = t' := by
  have htake {u t : Text} (hu : ∀ c ∈ u, isBlank c = true) (ht : ∀ c ∈ t.head?, isBlank c = false) :
      (u ++ t).takeWhile isBlank = u := by
    rw [List.takeWhile_append_of_pos hu]
    cases t with
    | nil => simp
    | cons c t => rw [List.takeWhile_cons_of_neg (by simp [ht c rfl]), List.append_nil]
  have heq : u = u' := by rw [← htake hu ht, h, htake hu' ht']
  subst heq
  exact ⟨rfl, List.append_cancel_left h⟩

end BlockScript.Text
