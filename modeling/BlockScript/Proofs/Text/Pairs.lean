import BlockScript.Proofs.Text.Wrapping

/-!
# Pairs of brackets

`Text.pairs` finds the partner of each bracket with a stack of the open groups and the places of their openers.  A text
is wrapped exactly if its first character opens a group and its last character is the partner
(`Text.isWrapped_iff_mem_pairs`), although `Text.isWrapped` looks at depths only: while all depths are positive, the
group at the bottom of the stack stays the one that the first character has opened (`Text.mem_pairsWithin_iff`).
-/

namespace BlockScript.Text

/-- The places of the openers and closers that belong together in a text that begins at `place`.  Each group that is
open in front of it is given with the place of its opener, the innermost first. -/
def pairsWithin (groups : List (Bracket × Nat)) (place : Nat) (previous : Option Char) : Text → List (Nat × Nat)
  | [] => []
  | c :: rest =>
    match Bracket.opening c rest.head? with
    | some b => pairsWithin ((b, place) :: groups) (place + 1) (some c) rest
    | none =>
      match groups with
      | [] => pairsWithin [] (place + 1) (some c) rest
      | (b, start) :: outer =>
        if Bracket.closing previous c = some b then (start, place) :: pairsWithin outer (place + 1) (some c) rest
        else pairsWithin ((b, start) :: outer) (place + 1) (some c) rest

/-- The places of the openers and closers that belong together. -/
def pairs (t : Text) : List (Nat × Nat) :=
  pairsWithin [] 0 none t

section Stack

variable {groups outer : List (Bracket × Nat)} {place start : Nat} {previous : Option Char} {b : Bracket} {c : Char}
  {t : Text}

theorem pairsWithin_of_opening (h : Bracket.opening c t.head? = some b) :
    pairsWithin groups place previous (c :: t) = pairsWithin ((b, place) :: groups) (place + 1) (some c) t := by
  rw [pairsWithin.eq_def]
  simp only [h]

theorem pairsWithin_of_closing (hopening : Bracket.opening c t.head? = none) (h : Bracket.closing previous c = some b) :
    pairsWithin ((b, start) :: outer) place previous (c :: t) =
      (start, place) :: pairsWithin outer (place + 1) (some c) t := by
  rw [pairsWithin, hopening]
  exact if_pos h

theorem pairsWithin_of_stay (hopening : Bracket.opening c t.head? = none)
    (h : ∀ g ∈ groups.head?, Bracket.closing previous c ≠ some g.1) :
    pairsWithin groups place previous (c :: t) = pairsWithin groups (place + 1) (some c) t := by
  cases groups with
  | nil => rw [pairsWithin, hopening]
  | cons g outer =>
    rw [pairsWithin, hopening]
    exact if_neg (h g rfl)

/-- A group whose opener stands elsewhere is not closed. -/
theorem ne_zero_of_mem_pairsWithin {i j : Nat} (hgroups : ∀ g ∈ groups, g.2 ≠ 0) (hplace : place ≠ 0)
    (h : (i, j) ∈ pairsWithin groups place previous t) : i ≠ 0 := by
  induction t generalizing groups place previous with
  | nil => cases h
  | cons c t ih =>
    cases hopening : Bracket.opening c t.head? with
    | some b =>
      rw [pairsWithin_of_opening hopening] at h
      exact ih (List.forall_mem_cons.2 ⟨hplace, hgroups⟩) (Nat.succ_ne_zero _) h
    | none =>
      by_cases hclosing : ∃ g ∈ groups.head?, Bracket.closing previous c = some g.1
      · obtain ⟨⟨b, start⟩, hhead, hclosing⟩ := hclosing
        obtain ⟨outer, rfl⟩ := List.head?_eq_some_iff.1 hhead
        obtain ⟨hstart, houter⟩ := List.forall_mem_cons.1 hgroups
        rw [pairsWithin_of_closing hopening hclosing] at h
        rcases List.mem_cons.1 h with hpair | h
        · cases hpair
          exact hstart
        · exact ih houter (Nat.succ_ne_zero _) h
      · rw [pairsWithin_of_stay hopening fun g hg hclosing' => hclosing ⟨g, hg, hclosing'⟩] at h
        exact ih hgroups (Nat.succ_ne_zero _) h

end Stack

namespace Inside

variable {b : Bracket} {groups : List Bracket} {previous : Option Char} {u : Text} {c z : Char}

/-- The character behind the brackets that closes the last group leaves none open. -/
theorem nil_iff (hbottom : groups.getLast? = some b) :
    Inside b groups previous [] z ↔ turned groups previous z none = [] := by
  have hdepths : depthsWithin groups groups.length previous ([] ++ [z]) =
      [min groups.length (turned groups previous z none).length] := depthsWithin_cons groups previous z []
  have hne : groups ≠ [] := by
    rintro rfl
    cases hbottom
  have hpos := List.length_pos_iff.2 hne
  constructor
  · rintro ⟨-, -, houtside⟩
    rw [hdepths] at houtside
    have hmin : min groups.length (turned groups previous z none).length = 0 := Option.some.inj houtside
    exact List.eq_nil_of_length_eq_zero (by omega)
  · intro hnil
    rw [hnil, List.length_nil, Nat.min_zero] at hdepths
    refine ⟨hbottom, fun d hd => ?_, ?_⟩
    · rw [hdepths] at hd
      cases hd
    · rw [hdepths]
      rfl

/-- A character between the brackets leaves some group open. -/
theorem cons_iff (hbottom : groups.getLast? = some b) : Inside b groups previous (c :: u) z ↔
    turned groups previous c (u ++ [z]).head? ≠ [] ∧
      Inside b (turned groups previous c (u ++ [z]).head?) (some c) u z := by
  have hdepths := depthsWithin_cons groups previous c (u ++ [z])
  rw [← List.cons_append] at hdepths
  have hrest := depthsWithin_ne_nil (turned groups previous c (u ++ [z]).head?) (some c) u z
  have hne : groups ≠ [] := by
    rintro rfl
    cases hbottom
  have hpos := List.length_pos_iff.2 hne
  constructor
  · intro h
    refine ⟨fun hnil => ?_, h.step⟩
    have hzero := h.inside 0 (by
      rw [hdepths, List.dropLast_cons_of_ne_nil hrest, hnil]
      simp)
    exact Nat.lt_irrefl 0 hzero
  · rintro ⟨hopen, h⟩
    have hopenpos := List.length_pos_iff.2 hopen
    refine ⟨hbottom, fun d hd => ?_, ?_⟩
    · rw [hdepths, List.dropLast_cons_of_ne_nil hrest] at hd
      rcases List.mem_cons.1 hd with rfl | hd
      · omega
      · exact h.inside d hd
    · rw [hdepths, List.getLast?_cons_of_ne_nil hrest]
      exact h.outside

end Inside

/-! ### Wrapping pairs -/

section Wrapping

variable {b : Bracket} {upper : List (Bracket × Nat)} {place last : Nat} {previous : Option Char} {c : Char} {t : Text}

private theorem exists_inside_cons_iff {groups : List Bracket} (hbottom : groups.getLast? = some b)
    (hopen : turned groups previous c t.head? ≠ []) :
    (∃ u, c :: t = u ++ [b.closer] ∧ Inside b groups previous u b.closer) ↔
      ∃ u, t = u ++ [b.closer] ∧ Inside b (turned groups previous c t.head?) (some c) u b.closer := by
  constructor
  · rintro ⟨u, hu, h⟩
    cases u with
    | nil =>
      obtain ⟨rfl, rfl⟩ := List.cons.inj hu
      exact absurd ((Inside.nil_iff hbottom).1 h) hopen
    | cons d u =>
      obtain ⟨rfl, rfl⟩ := List.cons.inj hu
      exact ⟨u, rfl, ((Inside.cons_iff hbottom).1 h).2⟩
  · rintro ⟨u, rfl, h⟩
    exact ⟨c :: u, rfl, (Inside.cons_iff hbottom).2 ⟨hopen, h⟩⟩

/-- Above the group at the bottom of the stack, whose opener stands at the place zero, a character opens a group, closes
one or leaves all as they are.  Otherwise it closes that group itself. -/
theorem step_pairsWithin (hupper : ∀ g ∈ upper, g.2 ≠ 0) (hplace : place ≠ 0) (last : Nat) (previous : Option Char)
    (b : Bracket) (c : Char) (t : Text) :
    (c = b.closer ∧ turned ((upper ++ [(b, 0)]).map Prod.fst) previous c t.head? = [] ∧
      pairsWithin (upper ++ [(b, 0)]) place previous (c :: t) =
        (0, place) :: pairsWithin [] (place + 1) (some c) t) ∨
    ∃ upper', (∀ g ∈ upper', g.2 ≠ 0) ∧
      turned ((upper ++ [(b, 0)]).map Prod.fst) previous c t.head? = (upper' ++ [(b, 0)]).map Prod.fst ∧
      ((0, last) ∈ pairsWithin (upper ++ [(b, 0)]) place previous (c :: t) ↔
        (0, last) ∈ pairsWithin (upper' ++ [(b, 0)]) (place + 1) (some c) t) := by
  cases hopening : Bracket.opening c t.head? with
  | some a =>
    refine .inr ⟨(a, place) :: upper, List.forall_mem_cons.2 ⟨hplace, hupper⟩, turned_of_opening hopening, ?_⟩
    rw [pairsWithin_of_opening hopening, List.cons_append]
  | none =>
    by_cases hclosing : ∃ g ∈ (upper ++ [(b, 0)]).head?, Bracket.closing previous c = some g.1
    · obtain ⟨⟨a, start⟩, hhead, hclosing⟩ := hclosing
      cases upper with
      | nil =>
        obtain ⟨rfl, rfl⟩ := Prod.mk.inj (Option.some.inj hhead)
        have hc : c = b.closer := Bracket.ofCloser?_eq_some_iff.1 (Option.filter_eq_some_iff.1 hclosing).1
        exact .inl ⟨hc, turned_of_closing hopening hclosing, pairsWithin_of_closing hopening hclosing⟩
      | cons g upper =>
        obtain rfl := Option.some.inj hhead
        obtain ⟨hstart, hupper⟩ := List.forall_mem_cons.1 hupper
        refine .inr ⟨upper, hupper, turned_of_closing hopening hclosing, ?_⟩
        rw [List.cons_append, pairsWithin_of_closing hopening hclosing, List.mem_cons, or_iff_right]
        exact fun h => hstart (Prod.mk.inj h).1.symm
    · refine .inr ⟨upper, hupper, turned_of_stay hopening ?_, ?_⟩
      · intro a ha hclosing'
        rw [List.head?_map] at ha
        obtain ⟨g, hg, rfl⟩ := Option.map_eq_some_iff.1 ha
        exact hclosing ⟨g, hg, hclosing'⟩
      · rw [pairsWithin_of_stay hopening fun g hg hclosing' => hclosing ⟨g, hg, hclosing'⟩]

/-- The group at the bottom of the stack is closed by the last character exactly if the text lies inside it up to
there. -/
theorem mem_pairsWithin_iff (hupper : ∀ g ∈ upper, g.2 ≠ 0) (hplace : place ≠ 0) (hlast : place + t.length = last + 1) :
    (0, last) ∈ pairsWithin (upper ++ [(b, 0)]) place previous t ↔
      ∃ u, t = u ++ [b.closer] ∧ Inside b ((upper ++ [(b, 0)]).map Prod.fst) previous u b.closer := by
  induction t generalizing upper place previous with
  | nil =>
    constructor
    · intro h
      cases h
    · rintro ⟨u, hu, -⟩
      cases u <;> cases hu
  | cons c t ih =>
    have hbottom : ((upper ++ [(b, 0)]).map Prod.fst).getLast? = some b := by simp
    have hplace' := Nat.succ_ne_zero place
    have hlast' : place + 1 + t.length = last + 1 := by
      rw [← hlast, List.length_cons]
      omega
    rcases step_pairsWithin hupper hplace last previous b c t with
      ⟨hc, hturned, hpairs⟩ | ⟨upper', hupper', hturned, hpairs⟩
    · -- the group is closed here, so that this has to be the last character
      have hnil : (0, last) ∈ pairsWithin (upper ++ [(b, 0)]) place previous (c :: t) ↔ t = [] := by
        rw [hpairs, List.mem_cons]
        constructor
        · rintro (h | h)
          · cases h
            exact List.eq_nil_of_length_eq_zero (by omega)
          · exact absurd rfl (ne_zero_of_mem_pairsWithin (fun g hg => by cases hg) hplace' h)
        · rintro rfl
          left
          rw [List.length_nil] at hlast'
          rw [show last = place by omega]
      rw [hnil]
      constructor
      · rintro rfl
        exact ⟨[], by rw [hc]; rfl, (Inside.nil_iff hbottom).2 (hc ▸ hturned)⟩
      · rintro ⟨u, hu, h⟩
        cases u with
        | nil => exact (List.cons.inj hu).2
        | cons d u =>
          obtain ⟨rfl, rfl⟩ := List.cons.inj hu
          exact absurd hturned ((Inside.cons_iff hbottom).1 h).1
    · rw [hpairs, exists_inside_cons_iff hbottom (by rw [hturned]; simp), hturned]
      exact ih hupper' hplace' hlast'

/-- The first character of a text that is wrapped opens a group. -/
theorem opening_of_wraps {u : Text} (h : wraps (depths (b.opener :: (u ++ [b.closer]))) = true) :
    Bracket.opening b.opener (u ++ [b.closer]).head? = some b := by
  cases u with
  | nil => cases b <;> rfl
  | cons d u =>
    by_contra hne
    have hopening : Bracket.opening b.opener (some d) = none := by
      refine Option.eq_none_iff_forall_ne_some.2 fun a ha => ?_
      have hab : a = b := by
        have hopener := (Option.filter_eq_some_iff.1 ha).1
        rw [Bracket.ofOpener?_eq_some_iff.2 rfl] at hopener
        exact (Option.some.inj hopener).symm
      exact hne (hab ▸ ha)
    have hturned : turned [] none b.opener (some d) = [] := turned_of_stay hopening nofun
    -- the second character lies outside all groups then
    have hfirst := depthsWithin_cons [] none b.opener (d :: (u ++ [b.closer]))
    have hsecond := depthsWithin_cons [] (some b.opener) d (u ++ [b.closer])
    rw [List.head?_cons, hturned, hsecond, List.length_nil, Nat.zero_min] at hfirst
    rw [depths, List.cons_append, hfirst, wraps, List.tail_cons,
      List.dropLast_cons_of_ne_nil (depthsWithin_ne_nil _ _ u _)] at h
    have hpos := List.all_eq_true.1 (Bool.and_eq_true_iff.1 h).1 0 List.mem_cons_self
    exact Nat.lt_irrefl 0 (of_decide_eq_true hpos)

/-- A pair of brackets wraps a text exactly if its first character opens a group that its last character closes. -/
theorem isWrapped_iff_mem_pairs (kinds : List Bracket) (t : Text) : isWrapped kinds t = true ↔
    ∃ b ∈ kinds, ∃ rest, t = b.opener :: rest ∧ Bracket.opening b.opener rest.head? = some b ∧
      (0, rest.length) ∈ t.pairs := by
  have hpartner {b : Bracket} {rest : Text} (hopening : Bracket.opening b.opener rest.head? = some b) :
      (0, rest.length) ∈ pairs (b.opener :: rest) ↔
        ∃ u, rest = u ++ [b.closer] ∧ Inside b [b] (some b.opener) u b.closer := by
    have hupper : ∀ g ∈ ([] : List (Bracket × Nat)), g.2 ≠ 0 := fun g hg => by cases hg
    rw [pairs, pairsWithin_of_opening hopening]
    exact mem_pairsWithin_iff hupper Nat.one_ne_zero (Nat.add_comm 1 rest.length)
  rw [isWrapped_eq_true_iff]
  constructor
  · rintro ⟨b, hb, u, rfl, hwraps⟩
    have hopening := opening_of_wraps hwraps
    exact ⟨b, hb, u ++ [b.closer], rfl, hopening,
      (hpartner hopening).2 ⟨u, rfl, (wraps_iff_inside hopening).1 hwraps⟩⟩
  · rintro ⟨b, hb, rest, rfl, hopening, hpair⟩
    obtain ⟨u, rfl, hinside⟩ := (hpartner hopening).1 hpair
    exact ⟨b, hb, u, rfl, (wraps_iff_inside hopening).2 hinside⟩

/-- Neither the arrow nor the closer that ends another kind of group is a partner. -/
example : pairs "<(a->b] = (c)>".toList = [(10, 12)] := by decide

end Wrapping

end BlockScript.Text
