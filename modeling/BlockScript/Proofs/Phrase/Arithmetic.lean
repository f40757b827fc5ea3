import BlockScript.Phrase.Arithmetic
import BlockScript.Proofs.Text.Groups
import Mathlib.Data.List.Nodup

/-!
# Where arithmetic is split

An operator stands by itself if it lies outside of all brackets and has an edge on each side, or nothing
(`Arithmetic.Stands`).  A text can be split at such an operator that has something on both sides
(`Arithmetic.SplitsAt`).  The search goes through the text once and remembers nothing, so what it finds is told by the
place that it has reached: the last one to split at from there on (`Arithmetic.lastCut?_cases`), and hence, from the
beginning of the text, the last one of all (`Arithmetic.lastCut?_eq_some_iff`).
-/

namespace BlockScript.Arithmetic

open Text

/-- All operators. -/
def operators : List Operator :=
  sums ++ products

/-- An operator stands by itself between two parts of a text: outside of all brackets, with an edge or the end of the
text on each side. -/
structure Stands (before : Text) (o : Operator) (after : Text) : Prop where
  mem : o ∈ operators
  outside : (before ++ (o.sign ++ after)).depths[before.length]? = some 0
  edge_before : ∀ c ∈ before.getLast?, isEdge c = true
  edge_after : ∀ c ∈ after.head?, isEdge c = true

/-- Signs hold neither brackets nor edges. -/
theorem sign_of_mem {o : Operator} (h : o ∈ operators) : o.sign ≠ [] ∧
    ∀ c ∈ o.sign, isEdge c = false ∧ Bracket.ofOpener? c = none ∧ Bracket.ofCloser? c = none := by
  have hsigns : ∀ o ∈ operators, o.sign ≠ [] ∧ o.sign.all (fun c =>
      isEdge c = false ∧ Bracket.ofOpener? c = none ∧ Bracket.ofCloser? c = none) = true := by decide
  exact ⟨(hsigns o h).1, forall_of_all (hsigns o h).2⟩

theorem isEdge_of_isBlank {c : Char} (h : isBlank c = true) : isEdge c = true := by
  simp [isEdge, h]

theorem isEdge_of_isBracket {c : Char} (h : isBracket c = true) : isEdge c = true := by
  simp only [isBracket, Bool.or_eq_true, decide_eq_true_eq] at h
  rcases h with ((rfl | rfl) | rfl) | rfl <;> rfl

/-- An operator lies outside of all brackets if no group is open in front of it. -/
theorem outside_iff {o : Operator} (ho : o ∈ operators) (before after : Text) :
    (before ++ (o.sign ++ after)).depths[before.length]? = some 0 ↔ opened [] none before o.sign.head? = [] := by
  obtain ⟨hne, hsign⟩ := sign_of_mem ho
  obtain ⟨c, sign, htext⟩ := List.exists_cons_of_ne_nil hne
  obtain ⟨-, hopener, hcloser⟩ := hsign c (htext ▸ List.mem_cons_self)
  rw [htext, List.cons_append, getElem?_depths hopener hcloser, List.head?_cons, Option.some_inj,
    List.length_eq_zero_iff]

/-! ### Places to split at -/

/-- A text can be split at an operator that stands by itself and has something on both sides. -/
structure SplitsAt (t before : Text) (o : Operator) (after : Text) : Prop where
  text : t = before ++ (o.sign ++ after)
  stands : Stands before o after
  left : before ≠ []
  right : after ≠ []

/-- The last place at which a text can be split at one of the operators. -/
structure IsLast (ops : List Operator) (t before : Text) (o : Operator) (after : Text) : Prop where
  mem : o ∈ ops
  splits : SplitsAt t before o after
  last : ∀ before' o' after', o' ∈ ops → SplitsAt t before' o' after' → before'.length ≤ before.length

/-- The place at which a text is to be split: the last one at a sum or a difference, and if there is none, the last one
at a product, a quotient or a remainder. -/
def IsLoosest (t before : Text) (o : Operator) (after : Text) : Prop :=
  IsLast sums t before o after ∨
    (¬∃ before' o' after', o' ∈ sums ∧ SplitsAt t before' o' after') ∧ IsLast products t before o after

section Places

variable {ops : List Operator} {t before before' after after' : Text} {o o' : Operator}

/-- Operators that begin with the same character are the same. -/
theorem eq_of_head?_sign (h : o ∈ operators) (h' : o' ∈ operators) (hhead : o.sign.head? = o'.sign.head?) : o = o' :=
  List.inj_on_of_nodup_map (by decide : (operators.map (·.sign.head?)).Nodup) h h' hhead

/-- At one place a text can be split in one way only. -/
theorem SplitsAt.unique (h : SplitsAt t before o after) (h' : SplitsAt t before' o' after')
    (hlength : before.length = before'.length) : before = before' ∧ o = o' ∧ after = after' := by
  obtain ⟨hbefore, hbehind⟩ := List.append_inj (h.text.symm.trans h'.text) hlength
  have hhead := congrArg List.head? hbehind
  rw [List.head?_append_of_ne_nil _ (sign_of_mem h.stands.mem).1,
    List.head?_append_of_ne_nil _ (sign_of_mem h'.stands.mem).1] at hhead
  have ho := eq_of_head?_sign h.stands.mem h'.stands.mem hhead
  subst ho
  exact ⟨hbefore, rfl, List.append_cancel_left hbehind⟩

/-- All last places are the same. -/
theorem IsLast.unique (h : IsLast ops t before o after) (h' : IsLast ops t before' o' after') :
    before = before' ∧ o = o' ∧ after = after' := by
  have hle := h.last before' o' after' h'.mem h'.splits
  have hge := h'.last before o after h.mem h.splits
  exact h.splits.unique h'.splits (Nat.le_antisymm hge hle)

theorem IsLoosest.splits (h : IsLoosest t before o after) : SplitsAt t before o after := by
  rcases h with hlast | ⟨-, hlast⟩
  · exact hlast.splits
  · exact hlast.splits

private theorem any_isEdge_iff {x : Option Char} : x.any isEdge = true ↔ x ≠ none ∧ ∀ c ∈ x, isEdge c = true := by
  cases x <;> simp

/-- A text can be split between two parts exactly if the second one begins with an operator that lies outside of all
brackets and between two edges. -/
theorem splitsAt_iff {rest : Text} (ht : t = before.reverse ++ rest) (ho : o ∈ operators) :
    SplitsAt t before.reverse o after ↔ t.depths[before.length]? = some 0 ∧ before.head?.any isEdge = true ∧
      rest = o.sign ++ after ∧ after.head?.any isEdge = true := by
  rw [any_isEdge_iff, any_isEdge_iff, ne_eq, ne_eq, List.head?_eq_none_iff, List.head?_eq_none_iff]
  constructor
  · rintro ⟨htext, ⟨-, houtside, hbefore, hafter⟩, hleft, hright⟩
    rw [← htext, List.length_reverse] at houtside
    rw [List.getLast?_reverse] at hbefore
    have hrest := List.append_cancel_left (ht.symm.trans htext)
    exact ⟨houtside, ⟨mt List.reverse_eq_nil_iff.2 hleft, hbefore⟩, hrest, hright, hafter⟩
  · rintro ⟨houtside, ⟨hleft, hbefore⟩, rfl, hright, hafter⟩
    refine ⟨ht, ⟨ho, ?_, ?_, hafter⟩, mt List.reverse_eq_nil_iff.1 hleft, hright⟩
    · rwa [← ht, List.length_reverse]
    · rwa [List.getLast?_reverse]

end Places

/-! ### The search -/

section Search

variable {ops : List Operator} {t after : Text} {o : Operator}

private theorem exists_of_operatorAt? (h : operatorAt? ops t = some (o, after)) :
    o ∈ ops ∧ t = o.sign ++ after ∧ after.head?.any isEdge = true := by
  obtain ⟨o', ho', hfound⟩ := List.exists_of_findSome?_eq_some h
  obtain ⟨rest, hrest, hedge⟩ := Option.bind_eq_some_iff.1 hfound
  split at hedge
  · rename_i hbehind
    obtain ⟨rfl, rfl⟩ := Prod.mk.inj (Option.some.inj hedge)
    exact ⟨ho', after?_eq_some_iff.1 hrest, hbehind⟩
  · cases hedge

private theorem ne_of_operatorAt?_eq_none (h : operatorAt? ops t = none) (ho : o ∈ ops)
    (hafter : after.head?.any isEdge = true) : t ≠ o.sign ++ after := by
  rintro rfl
  have hnone := List.findSome?_eq_none_iff.1 h o ho
  rw [after?_eq_some_iff.2 rfl, Option.bind_some, if_pos hafter] at hnone
  cases hnone

/-- What the search finds behind a place is what it finds from there on. -/
private theorem lastCut?_of_eq_some {before rest : Text} {c : Char} {cut : Cut} (ht : t = before.reverse ++ c :: rest)
    (hlater : lastCut? ops (c :: before) rest (t.depths.drop (c :: before).length) = some cut) :
    lastCut? ops before (c :: rest) (t.depths.drop before.length) = some cut := by
  obtain ⟨d, -, hdepths⟩ := exists_drop_depths ht
  rw [hdepths, lastCut?, hlater]

/-- If the search finds nothing behind a place, it takes the operator there. -/
private theorem lastCut?_of_eq_none {before rest : Text} {c : Char} (hops : ops ⊆ operators)
    (ht : t = before.reverse ++ c :: rest)
    (hlater : lastCut? ops (c :: before) rest (t.depths.drop (c :: before).length) = none) :
    (∃ o after, o ∈ ops ∧ SplitsAt t before.reverse o after ∧
      lastCut? ops before (c :: rest) (t.depths.drop before.length) =
        some ⟨o.operation, trim before.reverse, after.trim⟩) ∨
    (∀ o after, o ∈ ops → ¬SplitsAt t before.reverse o after) ∧
      lastCut? ops before (c :: rest) (t.depths.drop before.length) = none := by
  obtain ⟨d, hd, hdepths⟩ := exists_drop_depths ht
  rw [hdepths, lastCut?, hlater]
  dsimp only
  by_cases hplace : d = 0 ∧ before.head?.any isEdge = true
  · obtain ⟨rfl, hbefore⟩ := hplace
    rw [if_pos (by simp [hbefore])]
    cases hfound : operatorAt? ops (c :: rest) with
    | some found =>
      obtain ⟨o, after⟩ := found
      obtain ⟨ho, hrest, hafter⟩ := exists_of_operatorAt? hfound
      exact .inl ⟨o, after, ho, (splitsAt_iff ht (hops ho)).2 ⟨hd, hbefore, hrest, hafter⟩, rfl⟩
    | none =>
      refine .inr ⟨fun o after ho h => ?_, rfl⟩
      obtain ⟨-, -, hrest, hafter⟩ := (splitsAt_iff ht (hops ho)).1 h
      exact ne_of_operatorAt?_eq_none hfound ho hafter hrest
  · refine .inr ⟨fun o after ho h => hplace ?_, if_neg (by simpa using hplace)⟩
    obtain ⟨houtside, hbefore, -, -⟩ := (splitsAt_iff ht (hops ho)).1 h
    exact ⟨Option.some.inj (hd.symm.trans houtside), hbefore⟩

/-- From each place on, the search finds the last place to split at if there is any. -/
theorem lastCut?_cases (hops : ops ⊆ operators) (before rest : Text) (ht : t = before.reverse ++ rest) :
    (∃ front o after, IsLast ops t front o after ∧
      lastCut? ops before rest (t.depths.drop before.length) = some ⟨o.operation, front.trim, after.trim⟩) ∨
    (∀ front o after, o ∈ ops → SplitsAt t front o after → front.length < before.length) ∧
      lastCut? ops before rest (t.depths.drop before.length) = none := by
  induction rest generalizing before with
  | nil =>
    refine .inr ⟨fun front o after ho h => ?_, by rw [lastCut?]; simp⟩
    have hlength := congrArg List.length (ht.symm.trans h.text)
    have hpos := List.length_pos_of_ne_nil h.right
    simp only [List.append_nil, List.length_reverse, List.length_append] at hlength
    omega
  | cons c rest ih =>
    have hnext : t = (c :: before).reverse ++ rest := by rw [ht, List.reverse_cons, List.append_assoc]; rfl
    rcases ih (c :: before) hnext with ⟨front, o, after, hlast, hcut⟩ | ⟨hbefore, hlater⟩
    · exact .inl ⟨front, o, after, hlast, lastCut?_of_eq_some ht hcut⟩
    · -- behind this place there is none, so it is the last one if the text can be split at it
      rcases lastCut?_of_eq_none hops ht hlater with ⟨o, after, ho, h, hcut⟩ | ⟨hnone, hcut⟩
      · refine .inl ⟨before.reverse, o, after, ⟨ho, h, fun front' o' after' ho' h' => ?_⟩, hcut⟩
        rw [List.length_reverse]
        exact Nat.le_of_lt_succ (hbefore front' o' after' ho' h')
      · refine .inr ⟨fun front o after ho h => ?_, hcut⟩
        have hne : front.length ≠ before.length := by
          intro hlength
          have heq := List.append_inj_left (ht.symm.trans h.text) (by rw [List.length_reverse, hlength])
          exact hnone o after ho (heq ▸ h)
        exact Nat.lt_of_le_of_ne (Nat.le_of_lt_succ (hbefore front o after ho h)) hne

/-- The search finds nothing exactly if there is no place to split at. -/
theorem lastCut?_eq_none_iff (hops : ops ⊆ operators) :
    lastCut? ops [] t t.depths = none ↔ ¬∃ before o after, o ∈ ops ∧ SplitsAt t before o after := by
  rcases lastCut?_cases hops [] t rfl with ⟨before, o, after, hlast, hcut⟩ | ⟨hnone, hcut⟩
  · have hsome : lastCut? ops [] t t.depths = some ⟨o.operation, before.trim, after.trim⟩ := hcut
    rw [hsome]
    exact ⟨nofun, fun h => absurd ⟨before, o, after, hlast.mem, hlast.splits⟩ h⟩
  · refine ⟨fun _ => ?_, fun _ => hcut⟩
    rintro ⟨before, o, after, ho, h⟩
    exact absurd (hnone before o after ho h) (Nat.not_lt_zero _)

/-- The search cuts a text at the last place to split at. -/
theorem lastCut?_eq_some_iff (hops : ops ⊆ operators) {cut : Cut} : lastCut? ops [] t t.depths = some cut ↔
    ∃ before o after, IsLast ops t before o after ∧ cut = ⟨o.operation, before.trim, after.trim⟩ := by
  rcases lastCut?_cases hops [] t rfl with ⟨before, o, after, hlast, hcut⟩ | ⟨hnone, hcut⟩
  · have hsome : lastCut? ops [] t t.depths = some ⟨o.operation, before.trim, after.trim⟩ := hcut
    rw [hsome, Option.some_inj]
    constructor
    · rintro rfl
      exact ⟨before, o, after, hlast, rfl⟩
    · rintro ⟨before', o', after', hlast', rfl⟩
      obtain ⟨rfl, rfl, rfl⟩ := hlast.unique hlast'
      rfl
  · have heq : lastCut? ops [] t t.depths = none := hcut
    rw [heq]
    refine ⟨nofun, ?_⟩
    rintro ⟨before, o, after, hlast, -⟩
    exact absurd (hnone before o after hlast.mem hlast.splits) (Nat.not_lt_zero _)

/-- A text stays whole exactly if there is no place to split it at. -/
theorem split?_eq_none_iff : split? t = none ↔ ¬∃ before o after, SplitsAt t before o after := by
  rw [split?, Option.or_eq_none_iff, lastCut?_eq_none_iff (List.subset_append_left sums products),
    lastCut?_eq_none_iff (List.subset_append_right sums products)]
  constructor
  · rintro ⟨hsums, hproducts⟩ ⟨before, o, after, h⟩
    rcases List.mem_append.1 h.stands.mem with ho | ho
    · exact hsums ⟨before, o, after, ho, h⟩
    · exact hproducts ⟨before, o, after, ho, h⟩
  · intro hnone
    constructor
    · rintro ⟨before, o, after, -, h⟩
      exact hnone ⟨before, o, after, h⟩
    · rintro ⟨before, o, after, -, h⟩
      exact hnone ⟨before, o, after, h⟩

/-- A text is split at the last place of the loosest operators. -/
theorem split?_eq_some_iff {cut : Cut} : split? t = some cut ↔
    ∃ before o after, IsLoosest t before o after ∧ cut = ⟨o.operation, before.trim, after.trim⟩ := by
  rw [split?, Option.or_eq_some_iff, lastCut?_eq_none_iff (List.subset_append_left sums products),
    lastCut?_eq_some_iff (List.subset_append_left sums products),
    lastCut?_eq_some_iff (List.subset_append_right sums products)]
  constructor
  · rintro (⟨before, o, after, hlast, hcut⟩ | ⟨hnone, before, o, after, hlast, hcut⟩)
    · exact ⟨before, o, after, .inl hlast, hcut⟩
    · exact ⟨before, o, after, .inr ⟨hnone, hlast⟩, hcut⟩
  · rintro ⟨before, o, after, hlast | ⟨hnone, hlast⟩, hcut⟩
    · exact .inl ⟨before, o, after, hlast, hcut⟩
    · exact .inr ⟨hnone, before, o, after, hlast, hcut⟩

/-- Arithmetic is split at an operator that stands by itself and has something on both sides. -/
theorem exists_of_split? {cut : Cut} (h : split? t = some cut) :
    ∃ before o after, t = before ++ (o.sign ++ after) ∧ Stands before o after ∧ before ≠ [] ∧ after ≠ [] ∧
      cut = ⟨o.operation, before.trim, after.trim⟩ := by
  obtain ⟨before, o, after, hloosest, hcut⟩ := split?_eq_some_iff.1 h
  obtain ⟨htext, hstands, hleft, hright⟩ := hloosest.splits
  exact ⟨before, o, after, htext, hstands, hleft, hright, hcut⟩

end Search

end BlockScript.Arithmetic
