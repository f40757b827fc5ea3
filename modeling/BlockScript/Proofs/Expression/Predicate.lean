import BlockScript.Proofs.Expression.Words

/-!
# Predicates as they are written

The texts of the predicates `mouse down?`, `key (… v) pressed?` and `not <…>` are read as these predicates with the
texts of their slots.  No predicate that is tried before reads them.
-/

namespace BlockScript

open Text

/-- An operation with a single form reads what the form matches. -/
theorem Operation.match?_of_forms {op : Operation} {form : Form} (h : op.forms = [form]) (t : Text) :
    op.match? t = form.match? t := by
  rw [match?, h, List.findSome?_cons]
  cases form.match? t <;> rfl

namespace Reader

theorem predicate?_mouseDown : predicate? "mouse down?".toList = some (.mouseDown, []) := by
  decide +kernel

/-! ### Keys -/

/-- What stands behind the name of a key. -/
private def keyTail : Form :=
  [.marker, .oneOf [')', ']'], .gap false] ++ Form.exactly "pressed".toList ++ [.optional ['?']]

private theorem forms_keyPressed : Operation.keyPressed.forms =
    [Form.exactly "key".toList ++ (.gap false :: .oneOf ['(', '['] :: .shortest "KEY_OPTION" :: keyTail)] := by
  decide +kernel

/-- A name does not end where a letter follows. -/
private theorem match?_keyTail {c : Char} (hc : isLetter c = true) (rest : Text) :
    Form.match? keyTail (c :: rest) = none := by
  have hblank : isBlank c = false := (isPlain_of_isLetter hc).notBlank
  have hcloser : [')', ']'].contains c = false := by
    have hout : ∀ d ∈ [')', ']'], isLetter d = false := forall_of_all (by decide)
    rw [Bool.eq_false_iff]
    intro hmem
    rw [hout c (List.contains_iff_mem.1 hmem)] at hc
    cases hc
  show (Piece.runGap _ true (c :: rest)).or (Piece.runOneOf [')', ']'] _ (c :: rest)) = none
  rw [Piece.runGap, if_neg (by rw [hblank]; decide), if_pos rfl, Piece.runOneOf, if_neg (by rw [hcloser]; decide)]
  rfl

theorem predicate?_keyPressed {key : Text} (h : IsName key) :
    predicate? ("key (".toList ++ (key ++ " v) pressed?".toList)) = some (.keyPressed, [("KEY_OPTION", key)]) := by
  have htail : Form.match? keyTail " v) pressed?".toList = some [] := by decide +kernel
  have hline : '\n' ∉ key := fun hmem => absurd (h.2 _ hmem) (by decide)
  have hshortest := @Piece.runShortest_eq_some (Form.match? keyTail) key " v) pressed?".toList [] h.1 hline
    (fun v hv hsuffix => by
      obtain ⟨c, v, rfl⟩ := List.exists_cons_of_ne_nil hv
      exact match?_keyTail (h.2 c (hsuffix.mem List.mem_cons_self)) _) htail
  have hname : Form.match? (.oneOf ['(', '['] :: .shortest "KEY_OPTION" :: keyTail)
      ('(' :: (key ++ " v) pressed?".toList)) = some [("KEY_OPTION", key)] := by
    show Option.map (Piece.bind "KEY_OPTION") (Piece.runShortest (Form.match? keyTail) _) = _
    have htrim : trim key = key := trim_eq_self (Token.isTrimmed_text h.isValid)
    rw [hshortest, Option.map_some, Piece.bind, htrim]
  have hmatch : Operation.keyPressed.match? ("key (".toList ++ (key ++ " v) pressed?".toList)) =
      some [("KEY_OPTION", key)] := by
    rw [Operation.match?_of_forms forms_keyPressed]
    show Form.match? _ ("key".toList ++ (' ' :: '(' :: (key ++ " v) pressed?".toList))) = _
    rw [Form.match?_exactly, Form.match?_gap (by decide) hname]
  rw [predicate?, predicates, List.findSome?_cons, predicateMatch?, hmatch]
  rfl

/-! ### Negations -/

private theorem forms_negation : Operation.negation.forms =
    [Form.exactly "not".toList ++ [.gap false, .oneOf ['<'], .shortest "OPERAND", .oneOf ['>']]] := by
  decide +kernel

theorem predicate?_negation {inside : Text} (h : inside.IsTrimmed) (hline : '\n' ∉ inside) :
    predicate? ("not <".toList ++ (inside ++ ['>'])) = some (.negation, [("OPERAND", inside)]) := by
  have hothers : ∀ op ∈ [Operation.keyPressed, .touchingColor, .touchingObject],
      op ≠ .negation ∧ ∀ form ∈ op.forms, form.excludes 'n' = true := by
    decide +kernel
  have hnone : ∀ op ∈ [Operation.keyPressed, .touchingColor, .touchingObject],
      predicateMatch? op ("not <".toList ++ (inside ++ ['>'])) = none := by
    intro op hop
    obtain ⟨hne, hforms⟩ := hothers op hop
    rw [predicateMatch?, if_neg hne, Option.or_none, Operation.match?, List.findSome?_eq_none_iff]
    exact fun form hform => Form.match?_eq_none_of_excludes (hforms form hform) _
  have hshortest := @Piece.runShortest_eq_some (Form.match? [.oneOf ['>']]) inside ['>'] [] h.ne_nil hline
    (fun v hv hsuffix => by
      obtain ⟨c, v, rfl⟩ := List.exists_cons_of_ne_nil hv
      have hnone : Form.match? [] (v ++ ['>']) = none := if_neg (by simp)
      show Piece.runOneOf ['>'] (Form.match? []) (c :: (v ++ ['>'])) = none
      rw [Piece.runOneOf, hnone, ite_self]) rfl
  have hoperand : Form.match? [.oneOf ['<'], .shortest "OPERAND", .oneOf ['>']] ('<' :: (inside ++ ['>'])) =
      some [("OPERAND", inside)] := by
    show Option.map (Piece.bind "OPERAND") (Piece.runShortest (Form.match? [.oneOf ['>']]) _) = _
    rw [hshortest, Option.map_some, Piece.bind, trim_eq_self h]
  have hmatch : Operation.negation.match? ("not <".toList ++ (inside ++ ['>'])) = some [("OPERAND", inside)] := by
    rw [Operation.match?_of_forms forms_negation]
    show Form.match? _ ("not".toList ++ (' ' :: '<' :: (inside ++ ['>']))) = _
    rw [Form.match?_exactly, Form.match?_gap (by decide) hoperand]
  rw [predicate?, predicates, List.findSome?_cons, hnone _ (by simp), List.findSome?_cons, hnone _ (by simp),
    List.findSome?_cons, hnone _ (by simp), List.findSome?_cons, predicateMatch?, hmatch]
  rfl

end Reader

end BlockScript
