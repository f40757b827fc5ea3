import BlockScript.Proofs.Text.Nesting

/-!
# Open groups

A character opens a group, closes the innermost one, or leaves all as they are (`Text.turned`).  The groups that are
open behind a part of a text (`Text.opened`) say all that the rest of the text needs to know about it: the depths behind
the part are those of the rest inside these groups (`Text.drop_depthsWithin`).  Blanks and words open and close nothing,
and where no group is open it does not matter what stands in front.
-/

namespace BlockScript

/-- Brackets are no blanks. -/
theorem Bracket.not_isBlank (b : Bracket) : isBlank b.opener = false ∧ isBlank b.closer = false := by
  cases b <;> decide

namespace Text

/-! ### Single characters -/

/-- What holds of all characters of a text is checked for these alone, and not for all characters that there are. -/
theorem forall_of_all {t : Text} {p : Char → Prop} [DecidablePred p] (h : t.all (p ·) = true) : ∀ c ∈ t, p c :=
  fun c hc => of_decide_eq_true (List.all_eq_true.1 h c hc)

/-- The groups that are open behind a character. -/
def turned (groups : List Bracket) (previous : Option Char) (c : Char) (next : Option Char) : List Bracket :=
  match turn groups previous c next with
  | .enter b => b :: groups
  | .leave => groups.tail
  | .stay => groups

/-- The number of round and square groups among some groups. -/
def values (groups : List Bracket) : Nat :=
  groups.countP (· ≠ .angle)

variable {groups : List Bracket} {previous next : Option Char} {c : Char}

private theorem openers_of_opening_eq_none (h : Bracket.opening c next = none) : openers [c] = 0 := by
  by_contra hc
  have hmem : c = '(' ∨ c = '[' := by
    by_contra hne
    exact hc (by simp [openers, hne])
  rcases hmem with rfl | rfl <;> cases h

private theorem eq_opener_of_opening {b : Bracket} (h : Bracket.opening c next = some b) : c = b.opener :=
  Bracket.ofOpener?_eq_some_iff.1 (Option.filter_eq_some_iff.1 h).1

private theorem eq_closer_of_closing {b : Bracket} (h : Bracket.closing previous c = some b) : c = b.closer :=
  Bracket.ofCloser?_eq_some_iff.1 (Option.filter_eq_some_iff.1 h).1

theorem turned_of_opening {b : Bracket} (h : Bracket.opening c next = some b) :
    turned groups previous c next = b :: groups := by
  unfold turned turn
  rw [h]

theorem turned_of_closing {b : Bracket} {outer : List Bracket} (hopening : Bracket.opening c next = none)
    (h : Bracket.closing previous c = some b) : turned (b :: outer) previous c next = outer := by
  simp [turned, turn, hopening, h]

theorem turned_of_stay (hopening : Bracket.opening c next = none)
    (h : ∀ b ∈ groups.head?, Bracket.closing previous c ≠ some b) : turned groups previous c next = groups := by
  cases groups with
  | nil => simp [turned, turn, hopening]
  | cons b outer => simp [turned, turn, hopening, h b rfl]

/-- A character opens no more groups than are open behind it or closed by it. -/
theorem le_turned (groups : List Bracket) (previous : Option Char) (c : Char) (next : Option Char) :
    values groups + openers [c] ≤ values (turned groups previous c next) + closers [c] := by
  cases hopening : Bracket.opening c next with
  | some b =>
    rw [turned_of_opening hopening, eq_opener_of_opening hopening]
    cases b <;> simp [values, openers, closers, Bracket.opener]
  | none =>
    rw [openers_of_opening_eq_none hopening]
    by_cases hclosing : ∃ b ∈ groups.head?, Bracket.closing previous c = some b
    · obtain ⟨b, hb, hclosing⟩ := hclosing
      obtain ⟨outer, rfl⟩ := List.head?_eq_some_iff.1 hb
      rw [turned_of_closing hopening hclosing, eq_closer_of_closing hclosing]
      cases b <;> simp [values, closers, Bracket.closer]
    · rw [turned_of_stay hopening fun b hb h => hclosing ⟨b, hb, h⟩]
      exact Nat.le_add_right _ _

/-- The depth of a character is the smaller number of groups on its two sides. -/
theorem depthsWithin_cons (groups : List Bracket) (previous : Option Char) (c : Char) (rest : Text) :
    depthsWithin groups groups.length previous (c :: rest) =
      min groups.length (turned groups previous c rest.head?).length ::
        depthsWithin (turned groups previous c rest.head?) (turned groups previous c rest.head?).length (some c)
          rest := by
  rw [depthsWithin, turned]
  cases turn groups previous c rest.head? with
  | enter b => simp
  | leave => simp
  | stay => simp

/-- A character that is no bracket turns nothing. -/
theorem turned_of_not_bracket (hopener : Bracket.ofOpener? c = none) (hcloser : Bracket.ofCloser? c = none) :
    turned groups previous c next = groups := by
  refine turned_of_stay ?_ fun b _ hb => ?_
  · rw [Bracket.opening, hopener]
    rfl
  · rw [Bracket.closing, hcloser] at hb
    cases hb

theorem not_bracket_of_isBlank (h : isBlank c = true) : Bracket.ofOpener? c = none ∧ Bracket.ofCloser? c = none := by
  constructor
  · rw [Option.eq_none_iff_forall_ne_some]
    intro b hb
    rw [Bracket.ofOpener?_eq_some_iff.1 hb, b.not_isBlank.1] at h
    cases h
  · rw [Option.eq_none_iff_forall_ne_some]
    intro b hb
    rw [Bracket.ofCloser?_eq_some_iff.1 hb, b.not_isBlank.2] at h
    cases h

/-! ### Parts of a text -/

/-- The groups that are open behind a text, in front of the character `next`. -/
def opened (groups : List Bracket) (previous : Option Char) : (t : Text) → (next : Option Char) → List Bracket
  | [], _ => groups
  | c :: rest, next => opened (turned groups previous c (rest.head?.or next)) (some c) rest next

variable {t u : Text}

private theorem getLast?_cons_or (c : Char) (t : Text) (previous : Option Char) :
    (c :: t).getLast?.or previous = t.getLast?.or (some c) := by
  cases t with
  | nil => rfl
  | cons d t => rw [List.getLast?_cons_cons, List.getLast?_cons, Option.some_or, Option.some_or]

theorem opened_append (groups : List Bracket) (previous : Option Char) (t u : Text) (next : Option Char) :
    opened groups previous (t ++ u) next =
      opened (opened groups previous t (u.head?.or next)) (t.getLast?.or previous) u next := by
  induction t generalizing groups previous with
  | nil => rfl
  | cons c t ih =>
    rw [List.cons_append, opened, ih, opened, List.head?_append, Option.or_assoc, getLast?_cons_or]

/-- The depths behind a part of a text are those of the rest inside the groups that the part leaves open. -/
theorem drop_depthsWithin (groups : List Bracket) (previous : Option Char) (t u : Text) :
    (depthsWithin groups groups.length previous (t ++ u)).drop t.length =
      depthsWithin (opened groups previous t u.head?) (opened groups previous t u.head?).length
        (t.getLast?.or previous) u := by
  induction t generalizing groups previous with
  | nil => rfl
  | cons c t ih =>
    rw [List.cons_append, depthsWithin_cons, List.length_cons, List.drop_succ_cons, ih, opened, List.head?_append,
      getLast?_cons_or]

/-- A character that is no bracket lies in the groups that are open in front of it. -/
theorem getElem?_depths (hopener : Bracket.ofOpener? c = none) (hcloser : Bracket.ofCloser? c = none) (t u : Text) :
    (t ++ c :: u).depths[t.length]? = some (opened [] none t (some c)).length := by
  have hdrop : ((t ++ c :: u).depths.drop t.length)[0]? = some (opened [] none t (some c)).length := by
    rw [depths, show (0 : Nat) = ([] : List Bracket).length from rfl, drop_depthsWithin, depthsWithin_cons]
    rw [turned_of_not_bracket hopener hcloser, Nat.min_self]
    rfl
  rwa [List.getElem?_drop] at hdrop

/-- The depths from a character on are its own one and those behind it. -/
theorem exists_drop_depths {before rest : Text} (ht : t = before.reverse ++ c :: rest) :
    ∃ d, t.depths[before.length]? = some d ∧ t.depths.drop before.length = d :: t.depths.drop (c :: before).length := by
  have hlt : before.length < t.depths.length := by
    rw [length_depths, ht, List.length_append, List.length_reverse, List.length_cons]
    omega
  exact ⟨t.depths[before.length], List.getElem?_eq_getElem hlt, List.drop_eq_getElem_cons hlt⟩

/-- A text without brackets leaves the groups as they are. -/
theorem opened_of_not_bracket (h : ∀ c ∈ t, Bracket.ofOpener? c = none ∧ Bracket.ofCloser? c = none) :
    opened groups previous t next = groups := by
  induction t generalizing previous with
  | nil => rfl
  | cons c t ih =>
    obtain ⟨⟨hopener, hcloser⟩, ht⟩ := List.forall_mem_cons.1 h
    rw [opened, turned_of_not_bracket hopener hcloser, ih ht]

/-- A part of a text closes no more groups than are open in front of it or opened by it. -/
theorem le_opened (groups : List Bracket) (previous : Option Char) (t : Text) (next : Option Char) :
    values groups + t.openers ≤ values (opened groups previous t next) + t.closers := by
  induction t generalizing groups previous with
  | nil => exact Nat.le_refl _
  | cons c t ih =>
    have hturned := le_turned groups previous c (t.head?.or next)
    have hrest := ih (turned groups previous c (t.head?.or next)) (some c)
    rw [openers_cons, closers_cons, opened]
    omega

/-- Where no group is open, no more brackets have opened one than have closed one. -/
theorem openers_le_of_opened (h : opened [] none t next = []) : t.openers ≤ t.closers := by
  have hle := le_opened [] none t next
  rw [h] at hle
  simpa [values] using hle

/-- Where no group is open, a closer closes nothing, whatever stands in front of it. -/
theorem opened_nil_congr (previous previous' : Option Char) (t : Text) (next : Option Char) :
    opened [] previous t next = opened [] previous' t next := by
  cases t with
  | nil => rfl
  | cons c t => rfl

/-- Blanks in front of a text leave its groups as they are. -/
theorem opened_blanks_append (hu : ∀ c ∈ u, isBlank c = true) (t : Text) (next : Option Char) :
    opened [] none (u ++ t) next = opened [] none t next := by
  rw [opened_append, opened_of_not_bracket fun c hc => not_bracket_of_isBlank (hu c hc)]
  exact opened_nil_congr _ _ t next

end Text

end BlockScript
