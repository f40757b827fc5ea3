import BlockScript.Bracket
import Mathlib.Data.List.Basic

/-!
# Nested brackets

A text is balanced if its round and square brackets are properly nested: each closer ends the innermost group that
is open, and none is open at the end.  Angle signs do not count.

* `Text.Balanced.of_append`: a balanced text is cut into balanced texts where as many groups have been closed as
  opened;
* `Text.balanced_iff_of_brackets`: only the brackets of a text matter.
-/

namespace BlockScript.Text

/-- Whether a character is a round or a square bracket. -/
def isBracket (c : Char) : Bool :=
  c = '(' || c = '[' || c = ')' || c = ']'

/-- The round and square brackets of a text. -/
def brackets (t : Text) : Text :=
  t.filter isBracket

/-- What a character does to the open groups, the innermost first, if it is right there. -/
def nestStep (groups : List Bracket) (c : Char) : Option (List Bracket) :=
  if c = '(' then some (.round :: groups)
  else if c = '[' then some (.square :: groups)
  else if c = ')' then
    match groups with
    | .round :: outer => some outer
    | _ => none
  else if c = ']' then
    match groups with
    | .square :: outer => some outer
    | _ => none
  else some groups

/-- The groups that are open after a text, if all brackets in it are right. -/
def nest (groups : List Bracket) (t : Text) : Option (List Bracket) :=
  t.foldlM nestStep groups

/-- The round and square brackets of a text are properly nested. -/
def Balanced (t : Text) : Prop :=
  nest [] t = some []

instance (t : Text) : Decidable (Balanced t) :=
  inferInstanceAs (Decidable (nest [] t = some []))

/-- The number of round and square brackets that open a group. -/
def openers (t : Text) : Nat :=
  t.countP fun c => c = '(' || c = '['

/-- The number of round and square brackets that close a group. -/
def closers (t : Text) : Nat :=
  t.countP fun c => c = ')' || c = ']'

theorem openers_append (s t : Text) : (s ++ t).openers = s.openers + t.openers :=
  List.countP_append

theorem closers_append (s t : Text) : (s ++ t).closers = s.closers + t.closers :=
  List.countP_append

theorem openers_cons (c : Char) (t : Text) : openers (c :: t) = openers [c] + t.openers :=
  openers_append [c] t

theorem closers_cons (c : Char) (t : Text) : closers (c :: t) = closers [c] + t.closers :=
  closers_append [c] t

/-! ### Steps -/

variable {groups groups' outer : List Bracket}

/-- A bracket that is right inside some groups is right inside more of them. -/
theorem nestStep_append {c : Char} (h : nestStep groups c = some groups') :
    nestStep (groups ++ outer) c = some (groups' ++ outer) := by
  unfold nestStep at h ⊢
  split_ifs at h ⊢
  · rw [← Option.some.inj h, List.cons_append]
  · rw [← Option.some.inj h, List.cons_append]
  · split at h
    · rw [← Option.some.inj h]
      rfl
    · cases h
  · split at h
    · rw [← Option.some.inj h]
      rfl
    · cases h
  · rw [← Option.some.inj h]

theorem nestStep_of_not_isBracket {c : Char} (h : isBracket c = false) : nestStep groups c = some groups := by
  simp only [isBracket, Bool.or_eq_false_iff, decide_eq_false_iff_not] at h
  obtain ⟨⟨⟨h₁, h₂⟩, h₃⟩, h₄⟩ := h
  unfold nestStep
  rw [if_neg h₁, if_neg h₂, if_neg h₃, if_neg h₄]

theorem length_nestStep {c : Char} (h : nestStep groups c = some groups') :
    groups'.length + closers [c] = groups.length + openers [c] := by
  unfold nestStep at h
  split_ifs at h with h₁ h₂ h₃ h₄
  · subst h₁
    rw [← Option.some.inj h, List.length_cons]
    rfl
  · subst h₂
    rw [← Option.some.inj h, List.length_cons]
    rfl
  · subst h₃
    split at h
    · rw [← Option.some.inj h, List.length_cons]
      rfl
    · cases h
  · subst h₄
    split at h
    · rw [← Option.some.inj h, List.length_cons]
      rfl
    · cases h
  · rw [← Option.some.inj h]
    simp [openers, closers, h₁, h₂, h₃, h₄]

/-- A bracket that is right inside some groups, and does not close the outermost, is right without it. -/
theorem nestStep_of_append {b : Bracket} {c : Char} (h : nestStep (groups ++ [b]) c = some groups')
    (hc : closers [c] ≤ groups.length + openers [c]) :
    ∃ inner, nestStep groups c = some inner ∧ groups' = inner ++ [b] := by
  cases groups with
  | nil =>
    -- only the outermost group is open, so `c` is no closer
    unfold nestStep at h ⊢
    split_ifs at h ⊢ with h₁ h₂ h₃ h₄
    · exact ⟨_, rfl, (Option.some.inj h).symm⟩
    · exact ⟨_, rfl, (Option.some.inj h).symm⟩
    · subst h₃
      cases hc
    · subst h₄
      cases hc
    · exact ⟨_, rfl, (Option.some.inj h).symm⟩
  | cons a groups =>
    unfold nestStep at h ⊢
    split_ifs at h ⊢ with h₁ h₂ h₃ h₄
    · exact ⟨_, rfl, (Option.some.inj h).symm⟩
    · exact ⟨_, rfl, (Option.some.inj h).symm⟩
    · cases a with
      | round => exact ⟨_, rfl, (Option.some.inj h).symm⟩
      | _ => cases h
    · cases a with
      | square => exact ⟨_, rfl, (Option.some.inj h).symm⟩
      | _ => cases h
    · exact ⟨_, rfl, (Option.some.inj h).symm⟩

/-! ### Texts -/

variable {s t : Text}

theorem nest_cons (c : Char) (t : Text) : nest groups (c :: t) = (nestStep groups c).bind (nest · t) :=
  List.foldlM_cons

theorem nest_append (s t : Text) : nest groups (s ++ t) = (nest groups s).bind (nest · t) :=
  List.foldlM_append

theorem nest_append_groups (h : nest groups t = some groups') :
    nest (groups ++ outer) t = some (groups' ++ outer) := by
  induction t generalizing groups with
  | nil =>
    rw [← Option.some.inj h]
    rfl
  | cons c t ih =>
    rw [nest_cons] at h ⊢
    obtain ⟨middle, hstep, hrest⟩ := Option.bind_eq_some_iff.1 h
    rw [nestStep_append hstep]
    exact ih hrest

theorem length_nest (h : nest groups t = some groups') :
    groups'.length + t.closers = groups.length + t.openers := by
  induction t generalizing groups with
  | nil =>
    rw [← Option.some.inj h]
    rfl
  | cons c t ih =>
    rw [nest_cons] at h
    obtain ⟨middle, hstep, hrest⟩ := Option.bind_eq_some_iff.1 h
    have hc := length_nestStep hstep
    have ht := ih hrest
    rw [openers_cons, closers_cons]
    omega

/-- Groups that are never closed do not matter. -/
theorem nest_of_nest_append {b : Bracket} (h : nest (groups ++ [b]) t = some groups')
    (hfront : ∀ u v, t = u ++ v → u.closers ≤ groups.length + u.openers) :
    ∃ inner, groups' = inner ++ [b] ∧ nest groups t = some inner := by
  induction t generalizing groups with
  | nil => exact ⟨groups, (Option.some.inj h).symm, rfl⟩
  | cons c t ih =>
    rw [nest_cons] at h
    obtain ⟨middle, hstep, hrest⟩ := Option.bind_eq_some_iff.1 h
    obtain ⟨next, hnext, rfl⟩ := nestStep_of_append hstep (hfront [c] t rfl)
    have hlength := length_nestStep hnext
    obtain ⟨inner, hinner, hnest⟩ := ih hrest (by
      intro u v huv
      have hc := hfront (c :: u) v (by rw [huv, List.cons_append])
      rw [openers_cons, closers_cons] at hc
      omega)
    refine ⟨inner, hinner, ?_⟩
    rw [nest_cons, hnext]
    exact hnest

/-! ### Only brackets count -/

theorem nest_brackets (t : Text) : nest groups t.brackets = nest groups t := by
  induction t generalizing groups with
  | nil => rfl
  | cons c t ih =>
    cases hc : isBracket c with
    | true =>
      rw [brackets, List.filter_cons_of_pos hc, nest_cons, nest_cons]
      exact congrArg _ (funext fun next => ih)
    | false =>
      rw [brackets, List.filter_cons_of_neg (by simp [hc]), nest_cons, nestStep_of_not_isBracket hc]
      exact ih

theorem brackets_append (s t : Text) : (s ++ t).brackets = s.brackets ++ t.brackets :=
  List.filter_append s t

theorem balanced_iff_of_brackets (h : s.brackets = t.brackets) : Balanced s ↔ Balanced t := by
  unfold Balanced
  rw [← nest_brackets s, h, nest_brackets]

theorem balanced_of_brackets_eq_nil (h : t.brackets = []) : Balanced t := by
  unfold Balanced
  rw [← nest_brackets, h]
  rfl

/-- A balanced text is cut into balanced texts where as many groups have been closed as opened. -/
theorem Balanced.of_append {middle : Text} (h : Balanced (s ++ (middle ++ t))) (hmiddle : middle.brackets = [])
    (hs : s.openers ≤ s.closers) : Balanced s ∧ Balanced t := by
  unfold Balanced at h
  rw [nest_append] at h
  obtain ⟨groups, hleft, hright⟩ := Option.bind_eq_some_iff.1 h
  have hlength := length_nest hleft
  have hgroups : groups = [] := List.eq_nil_of_length_eq_zero (by simp at hlength; omega)
  subst hgroups
  refine ⟨hleft, ?_⟩
  rw [nest_append, ← nest_brackets middle, hmiddle] at hright
  exact hright

end BlockScript.Text
