import BlockScript.Bracket

/-!
# Parts of a text

What trimming and the removal of brackets leave of a text stands in it in one piece.
-/

namespace BlockScript.Text

theorem infix_trimLeft (t : Text) : t.trimLeft <:+: t :=
  (List.dropWhile_suffix isBlank).isInfix

theorem infix_trimRight (t : Text) : t.trimRight <:+: t := by
  have hsuffix : t.reverse.dropWhile isBlank <:+ t.reverse := List.dropWhile_suffix isBlank
  have hprefix : (t.reverse.dropWhile isBlank).reverse <+: t.reverse.reverse := List.reverse_prefix.2 hsuffix
  rw [List.reverse_reverse] at hprefix
  exact hprefix.isInfix

theorem infix_trim (t : Text) : t.trim <:+: t :=
  t.trimLeft.infix_trimRight.trans t.infix_trimLeft

theorem infix_inner (t : Text) : t.inner <:+: t :=
  t.tail.dropLast_prefix.isInfix.trans t.tail_suffix.isInfix

theorem infix_of_after {start t rest : Text} (h : after? start t = some rest) : rest <:+: t := by
  rw [after?_eq_some_iff.1 h]
  exact (List.suffix_append start rest).isInfix

/-- The brackets that are removed stand around what is left. -/
theorem infix_peel (kinds : List Bracket) (t : Text) : peel kinds t <:+: t := by
  fun_induction peel kinds t with
  | case1 t h ih => exact ih.trans (t.trim.infix_inner.trans t.infix_trim)
  | case2 t h => exact t.infix_trim

theorem infix_bare (t : Text) : t.bare <:+: t :=
  infix_peel _ t

theorem infix_bareCondition (t : Text) : t.bareCondition <:+: t :=
  infix_peel _ t

end BlockScript.Text
