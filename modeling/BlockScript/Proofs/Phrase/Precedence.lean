import BlockScript.Proofs.Phrase.Arithmetic
import BlockScript.Proofs.Text.Trim

/-!
# Precedence

A text is split at its last sum or difference, and if it has none, at its last product, quotient or remainder
(`Arithmetic.split?_loosest`).  It stays whole exactly if there is no place to split it at.  In a trimmed text each
place has more than blanks on both sides (`Arithmetic.SplitsAt.trim_ne_nil`).
-/

namespace BlockScript.Arithmetic

open Text

variable {t before after : Text} {o : Operator}

/-- In a trimmed text, each place has more than blanks on both sides. -/
theorem SplitsAt.trim_ne_nil (h : SplitsAt t before o after) (ht : t.trim = t) :
    before.trim ≠ [] ∧ after.trim ≠ [] := by
  have hne : t.trim ≠ [] := by
    rw [ht, h.text]
    exact List.append_ne_nil_of_left_ne_nil h.left _
  obtain ⟨⟨c, rest, hfirst, hc⟩, ⟨front, d, hlast, hd⟩⟩ := isTrimmed_trim hne
  rw [ht] at hfirst hlast
  -- the ends of the text are the outer ends of its two sides
  have hbefore : before.head? = some c := by
    rw [← List.head?_append_of_ne_nil before h.left, ← h.text, hfirst, List.head?_cons]
  have hafter : after.getLast? = some d := by
    rw [← List.getLast?_append_of_ne_nil (before ++ o.sign) h.right, List.append_assoc, ← h.text, hlast,
      List.getLast?_concat]
  exact ⟨trim_ne_nil_iff.2 ⟨c, List.mem_of_head? hbefore, hc⟩, trim_ne_nil_iff.2 ⟨d, List.mem_of_getLast? hafter, hd⟩⟩

/-- A text stays whole exactly if there is no place to split it at.  Otherwise it is split at the last sum or
difference, and if there is none, at the last product, quotient or remainder; the two sides of a trimmed text are not
empty. -/
theorem split?_loosest (t : Text) :
    (split? t = none ↔ ¬∃ before o after, SplitsAt t before o after) ∧
    (∀ cut, split? t = some cut ↔
      ∃ before o after, IsLoosest t before o after ∧ cut = ⟨o.operation, before.trim, after.trim⟩) ∧
    ∀ cut, split? t = some cut → t.trim = t → cut.left ≠ [] ∧ cut.right ≠ [] := by
  refine ⟨split?_eq_none_iff, fun cut => split?_eq_some_iff, fun cut h ht => ?_⟩
  obtain ⟨before, o, after, hloosest, rfl⟩ := split?_eq_some_iff.1 h
  exact hloosest.splits.trim_ne_nil ht

/-- The sum stands in brackets, the second `mod` is part of a word, the last sign touches its number, and the product
binds its sides closer than the difference. -/
theorem split?_loosest_difference :
    split? "x mod (a + b) - modem - -5 * 2".toList =
      some ⟨.subtract, "x mod (a + b) - modem".toList, "-5 * 2".toList⟩ ∧
    trim "x mod (a + b) - modem - -5 * 2".toList = "x mod (a + b) - modem - -5 * 2".toList ∧
    (∃ before o after, IsLoosest "x mod (a + b) - modem - -5 * 2".toList before o after ∧
      (⟨.subtract, "x mod (a + b) - modem".toList, "-5 * 2".toList⟩ : Cut) =
        ⟨o.operation, before.trim, after.trim⟩) ∧
    "x mod (a + b) - modem".toList ≠ [] ∧ "-5 * 2".toList ≠ [] :=
  have hsplit : split? "x mod (a + b) - modem - -5 * 2".toList =
      some ⟨.subtract, "x mod (a + b) - modem".toList, "-5 * 2".toList⟩ := by rfl
  have htrim : trim "x mod (a + b) - modem - -5 * 2".toList = "x mod (a + b) - modem - -5 * 2".toList := by decide
  ⟨hsplit, htrim, ((split?_loosest _).2.1 _).1 hsplit, (split?_loosest _).2.2 _ hsplit htrim⟩

end BlockScript.Arithmetic
