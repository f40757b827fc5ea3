import BlockScript.Proofs.Phrase.Arithmetic
import BlockScript.Proofs.Text.Trim

/-!
# Operators side by side

Arithmetic is split at an operator that has something on both sides, but that may be another operator: the search for
the last one looks at the two characters beside it only, and a blank counts as an edge.  So in `a * -(b)` the sign in
front of the group counts as a difference.  A split is at a binary operator (`Arithmetic.Cut.IsBinary`) exactly if no
other operator stands on either side of it behind nothing but blanks (`Arithmetic.isBinary_of_split?`).
-/

namespace BlockScript.Arithmetic

open Text

/-- The text ends in an operator that stands by itself. -/
def EndsInOperator (t : Text) : Prop :=
  ∃ before o, t = before ++ o.sign ∧ Stands before o []

/-- The text begins with an operator that stands by itself. -/
def BeginsWithOperator (t : Text) : Prop :=
  ∃ o after, t = o.sign ++ after ∧ Stands [] o after

/-- A cut at a binary operator: its sides touch the cut with operands. -/
structure Cut.IsBinary (cut : Cut) : Prop where
  left : ¬EndsInOperator cut.left
  right : ¬BeginsWithOperator cut.right

/-- Two operators of a text stand by themselves and have nothing but blanks between them. -/
structure Meet (before : Text) (o : Operator) (gap : Text) (o' : Operator) (after : Text) : Prop where
  blank : ∀ c ∈ gap, isBlank c = true
  left : Stands before o (gap ++ (o'.sign ++ after))
  right : Stands (before ++ (o.sign ++ gap)) o' after

/-- No other operator of the text meets this one. -/
structure IsLone (before : Text) (o : Operator) (after : Text) : Prop where
  left : ¬∃ front o' gap, before = front ++ (o'.sign ++ gap) ∧ Meet front o' gap o after
  right : ¬∃ gap o' rest, after = gap ++ (o'.sign ++ rest) ∧ Meet before o gap o' rest

theorem isTrimmed_sign {o : Operator} (h : o ∈ operators) : o.sign.IsTrimmed := by
  obtain ⟨hne, hsign⟩ := sign_of_mem h
  have hblank : ∀ c ∈ o.sign, isBlank c = false := fun c hc =>
    Bool.eq_false_iff.2 fun h => Bool.eq_false_iff.1 (hsign c hc).1 (isEdge_of_isBlank h)
  obtain ⟨c, rest, hfirst⟩ := List.exists_cons_of_ne_nil hne
  exact ⟨⟨c, rest, hfirst, hblank c (hfirst ▸ List.mem_cons_self)⟩,
    ⟨_, _, (List.dropLast_append_getLast hne).symm, hblank _ (List.getLast_mem hne)⟩⟩

variable {before after gap : Text} {o : Operator}

private theorem isEdge_head? {t u : Text} (ht : ∀ c ∈ t.head?, isEdge c = true)
    (hu : t = [] → ∀ c ∈ u.head?, isEdge c = true) : ∀ c ∈ (t ++ u).head?, isEdge c = true := by
  intro c hc
  rw [List.head?_append] at hc
  rcases Option.or_eq_some_iff.1 hc with hc | ⟨hnil, hc⟩
  · exact ht c hc
  · exact hu (List.head?_eq_none_iff.1 hnil) c hc

private theorem isEdge_getLast? {t u : Text} (ht : u = [] → ∀ c ∈ t.getLast?, isEdge c = true)
    (hu : ∀ c ∈ u.getLast?, isEdge c = true) : ∀ c ∈ (t ++ u).getLast?, isEdge c = true := by
  intro c hc
  rw [List.getLast?_append] at hc
  rcases Option.or_eq_some_iff.1 hc with hc | ⟨hnil, hc⟩
  · exact hu c hc
  · exact ht (List.getLast?_eq_none_iff.1 hnil) c hc

/-- Something parts an operator from an edge behind it. -/
private theorem ne_nil_of_getLast? (ho : o ∈ operators)
    (h : ∀ c ∈ (before ++ (o.sign ++ gap)).getLast?, isEdge c = true) : gap ≠ [] := by
  rintro rfl
  obtain ⟨hne, hsign⟩ := sign_of_mem ho
  have hlast : o.sign.getLast hne ∈ (before ++ (o.sign ++ [])).getLast? := by
    rw [List.append_nil, List.getLast?_append_of_ne_nil _ hne]
    exact List.getLast?_eq_some_getLast hne
  have hedge := h _ hlast
  rw [(hsign _ (List.getLast_mem hne)).1] at hedge
  cases hedge

/-- Something parts an operator from an edge in front of it. -/
private theorem ne_nil_of_head? (ho : o ∈ operators)
    (h : ∀ c ∈ (gap ++ (o.sign ++ after)).head?, isEdge c = true) : gap ≠ [] := by
  rintro rfl
  obtain ⟨hne, hsign⟩ := sign_of_mem ho
  obtain ⟨c, rest, hfirst⟩ := List.exists_cons_of_ne_nil hne
  have hedge := h c (by rw [hfirst]; rfl)
  rw [(hsign c (hfirst ▸ List.mem_cons_self)).1] at hedge
  cases hedge

/-- An operator and blanks behind it leave all groups as they are. -/
private theorem opened_sign_append_blanks (ho : o ∈ operators) (hgap : ∀ c ∈ gap, isBlank c = true)
    (groups : List Bracket) (previous next : Option Char) :
    opened groups previous (o.sign ++ gap) next = groups :=
  opened_of_not_bracket (List.forall_mem_append.2
    ⟨fun c hc => ((sign_of_mem ho).2 c hc).2, fun c hc => not_bracket_of_isBlank (hgap c hc)⟩)

/-- The part in front of an operator ends in an operator exactly if two operators meet there. -/
theorem endsInOperator_trim_iff (h : Stands before o after) : EndsInOperator before.trim ↔
    ∃ front o' gap, before = front ++ (o'.sign ++ gap) ∧ Meet front o' gap o after := by
  constructor
  · rintro ⟨front, o', hends, hfront⟩
    obtain ⟨u, gap, hbefore, hu, hgap⟩ := exists_trim before
    rw [hends, List.append_assoc, ← List.append_assoc] at hbefore
    have hne : gap ≠ [] := ne_nil_of_getLast? hfront.mem (hbefore ▸ h.edge_before)
    refine ⟨u ++ front, o', gap, hbefore, hgap, ⟨hfront.mem, ?_, ?_, ?_⟩, hbefore ▸ h⟩
    · rw [outside_iff hfront.mem, opened_blanks_append hu]
      exact (outside_iff hfront.mem front []).1 hfront.outside
    · refine isEdge_getLast? (fun _ c hc => ?_) hfront.edge_before
      exact isEdge_of_isBlank (hu c (List.mem_of_getLast? hc))
    · refine isEdge_head? (fun c hc => ?_) fun hnil => absurd hnil hne
      exact isEdge_of_isBlank (hgap c (List.mem_of_head? hc))
  · rintro ⟨front, o', gap, rfl, hgap, hleft, -⟩
    obtain ⟨u, front, rfl, hu, htrim⟩ := exists_append_trim (isTrimmed_sign hleft.mem) front
    have htrimmed : IsTrimmed (front ++ o'.sign) :=
      htrim ▸ isTrimmed_trim (by rw [htrim]; exact List.append_ne_nil_of_right_ne_nil _ (sign_of_mem hleft.mem).1)
    have hbefore : trim ((u ++ front) ++ (o'.sign ++ gap)) = front ++ o'.sign := by
      rw [List.append_assoc, trim_blanks_append hu, ← List.append_assoc, trim_append_blanks htrimmed hgap]
    refine ⟨front, o', hbefore, hleft.mem, ?_, ?_, nofun⟩
    · rw [outside_iff hleft.mem, ← opened_blanks_append hu]
      exact (outside_iff hleft.mem _ _).1 hleft.outside
    · intro c hc
      refine hleft.edge_before c ?_
      rw [List.getLast?_append, hc]
      rfl

/-- The part behind an operator begins with an operator exactly if two operators meet there. -/
theorem beginsWithOperator_trim_iff (h : Stands before o after) : BeginsWithOperator after.trim ↔
    ∃ gap o' rest, after = gap ++ (o'.sign ++ rest) ∧ Meet before o gap o' rest := by
  constructor
  · rintro ⟨o', rest, hbegins, hrest⟩
    obtain ⟨gap, v, hafter, hgap, hv⟩ := exists_trim after
    rw [hbegins, List.append_assoc] at hafter
    have hne : gap ≠ [] := ne_nil_of_head? hrest.mem (hafter ▸ h.edge_after)
    have hne' : o.sign ≠ [] := (sign_of_mem h.mem).1
    refine ⟨gap, o', rest ++ v, hafter, hgap, hafter ▸ h, hrest.mem, ?_, ?_, ?_⟩
    · rw [outside_iff hrest.mem, opened_append, opened_sign_append_blanks h.mem hgap]
      rw [List.head?_append_of_ne_nil _ hne', Option.or_of_isSome (List.isSome_head?.2 hne')]
      exact (outside_iff h.mem before after).1 h.outside
    · rw [← List.append_assoc]
      refine isEdge_getLast? (fun hnil => absurd hnil hne) fun c hc => ?_
      exact isEdge_of_isBlank (hgap c (List.mem_of_getLast? hc))
    · refine isEdge_head? hrest.edge_after fun _ c hc => ?_
      exact isEdge_of_isBlank (hv c (List.mem_of_head? hc))
  · rintro ⟨gap, o', rest, rfl, hgap, -, hright⟩
    obtain ⟨rest, v, rfl, hv, htrim⟩ := exists_trim_append (isTrimmed_sign hright.mem) rest
    refine ⟨o', rest, by rw [trim_blanks_append hgap, htrim], hright.mem, ?_, nofun, ?_⟩
    · rw [outside_iff hright.mem]
      rfl
    · intro c hc
      refine hright.edge_after c ?_
      rw [List.head?_append, hc]
      rfl

/-- A split lies at an operator that stands by itself, and it is at a binary operator exactly if no other operator meets
that one. -/
theorem isBinary_of_split? {t : Text} {cut : Cut} (h : split? t = some cut) :
    ∃ before o after, t = before ++ (o.sign ++ after) ∧ Stands before o after ∧
      cut = ⟨o.operation, before.trim, after.trim⟩ ∧ (cut.IsBinary ↔ IsLone before o after) := by
  obtain ⟨before, o, after, htext, hstands, -, -, rfl⟩ := exists_of_split? h
  have hleft := not_congr (endsInOperator_trim_iff hstands)
  have hright := not_congr (beginsWithOperator_trim_iff hstands)
  refine ⟨before, o, after, htext, hstands, rfl, ?_⟩
  exact ⟨fun ⟨hl, hr⟩ => ⟨hleft.1 hl, hright.1 hr⟩, fun ⟨hl, hr⟩ => ⟨hleft.2 hl, hright.2 hr⟩⟩

/-- A sign in front of a group is taken for a difference whose left side ends in an operator. -/
theorem split?_sign : split? "a * -(b)".toList = some ⟨.subtract, "a *".toList, "(b)".toList⟩ ∧
    EndsInOperator "a *".toList := by
  have hmem : ⟨['*'], .multiply⟩ ∈ operators := List.mem_append_right sums List.mem_cons_self
  have hedge : ∀ c ∈ some ' ', isEdge c = true := by
    intro c hc
    obtain rfl : ' ' = c := Option.some.inj hc
    rfl
  exact ⟨by rfl, "a ".toList, _, rfl, hmem, by decide, hedge, nofun⟩

/-- A sign that touches its number is no operator, so this difference is split at a binary one unless another operator
meets it. -/
theorem isBinary_of_split?_difference : split? "10 - -5".toList = some ⟨.subtract, "10".toList, "-5".toList⟩ ∧
    ∃ (before : Text) (o : Operator) (after : Text), "10 - -5".toList = before ++ (o.sign ++ after) ∧
      Stands before o after ∧ (⟨.subtract, "10".toList, "-5".toList⟩ : Cut) = ⟨o.operation, before.trim, after.trim⟩ ∧
      (Cut.IsBinary ⟨.subtract, "10".toList, "-5".toList⟩ ↔ IsLone before o after) := by
  have hsplit : split? "10 - -5".toList = some ⟨.subtract, "10".toList, "-5".toList⟩ := by rfl
  exact ⟨hsplit, isBinary_of_split? hsplit⟩

end BlockScript.Arithmetic
