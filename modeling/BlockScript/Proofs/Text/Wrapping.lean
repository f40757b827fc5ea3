import BlockScript.Proofs.Text.Splitting

/-!
# Wrapping pairs

A pair wraps a text if all characters between its brackets lie inside a group.  Then the group of the pair stays open
until the end (`Text.Inside`), so that the brackets between are balanced exactly if all of them are
(`Text.balanced_inner_iff`), and removing such pairs keeps a text as it is in this respect
(`Text.balanced_peel_iff`).
-/

namespace BlockScript.Text

theorem depthsWithin_ne_nil (groups : List Bracket) (previous : Option Char) (u : Text) (z : Char) :
    depthsWithin groups groups.length previous (u ++ [z]) ≠ [] := by
  intro hnil
  have hlength := congrArg List.length hnil
  rw [length_depthsWithin, List.length_append] at hlength
  cases hlength

/-- The characters of `u` lie inside a group that `b` has opened, and `z` behind them closes the last group. -/
structure Inside (b : Bracket) (groups : List Bracket) (previous : Option Char) (u : Text) (z : Char) : Prop where
  bottom : groups.getLast? = some b
  inside : ∀ d ∈ (depthsWithin groups groups.length previous (u ++ [z])).dropLast, 0 < d
  outside : (depthsWithin groups groups.length previous (u ++ [z])).getLast? = some 0

namespace Inside

variable {b : Bracket} {groups : List Bracket} {previous : Option Char} {u : Text} {c z : Char}

/-- The outermost group stays the same until none is left. -/
private theorem getLast?_turned {next : Option Char} (h : groups.getLast? = some b)
    (hne : turned groups previous c next ≠ []) : (turned groups previous c next).getLast? = some b := by
  obtain ⟨a, outer, rfl⟩ : ∃ a outer, groups = a :: outer := by
    cases groups with
    | nil => cases h
    | cons a outer => exact ⟨a, outer, rfl⟩
  unfold turned at hne ⊢
  cases hturn : turn (a :: outer) previous c next with
  | enter a' => exact h
  | leave =>
    rw [hturn] at hne
    cases outer with
    | nil => exact absurd rfl hne
    | cons a' outer => exact h
  | stay => exact h

theorem step (h : Inside b groups previous (c :: u) z) :
    Inside b (turned groups previous c (u ++ [z]).head?) (some c) u z := by
  obtain ⟨hbottom, hinside, houtside⟩ := h
  rw [List.cons_append, depthsWithin_cons] at hinside houtside
  rw [List.dropLast_cons_of_ne_nil (depthsWithin_ne_nil _ _ u z)] at hinside
  rw [List.getLast?_cons_of_ne_nil (depthsWithin_ne_nil _ _ u z)] at houtside
  refine ⟨getLast?_turned hbottom ?_, fun d hd => hinside d (List.mem_cons_of_mem _ hd), houtside⟩
  intro hnil
  have hpos := hinside _ List.mem_cons_self
  rw [hnil] at hpos
  simp at hpos

/-- At most one group more is closed than opened, that of the pair. -/
theorem count (h : Inside b groups previous u z) : values groups + u.openers ≤ u.closers + 1 := by
  induction u generalizing groups previous with
  | nil =>
    obtain ⟨hbottom, -, houtside⟩ := h
    rw [List.nil_append, depthsWithin_cons] at houtside
    have hdepth : min groups.length (turned groups previous z none).length = 0 := Option.some.inj houtside
    have hpos : groups ≠ [] := by
      rintro rfl
      cases hbottom
    have hturned := le_turned groups previous z none
    rw [List.eq_nil_of_length_eq_zero (l := turned groups previous z none)
      (by have := List.length_pos_iff.2 hpos; omega)] at hturned
    have hcloser : closers [z] ≤ 1 := List.countP_le_length
    show values groups + 0 ≤ 0 + 1
    have hnone : values [] = 0 := rfl
    omega
  | cons c u ih =>
    have hstep := ih h.step
    have hturned := le_turned groups previous c (u ++ [z]).head?
    rw [openers_cons, closers_cons]
    omega

theorem of_append {s : Text} (h : Inside b groups previous (s ++ u) z) :
    ∃ groups' previous', Inside b groups' previous' u z := by
  induction s generalizing groups previous with
  | nil => exact ⟨groups, previous, h⟩
  | cons c s ih => exact ih h.step

/-- From each place on, no more groups are opened inside than closed. -/
theorem openers_le {s : Text} (h : Inside b groups previous (s ++ u) z) (hb : b ≠ .angle) :
    u.openers ≤ u.closers := by
  obtain ⟨groups', previous', hu⟩ := h.of_append
  have hcount := hu.count
  have hvalues : 0 < values groups' :=
    List.countP_pos_iff.2 ⟨b, List.mem_of_getLast? hu.bottom, decide_eq_true hb⟩
  omega

end Inside

/-! ### Pairs -/

variable {b : Bracket} {u t : Text}

private theorem nestStep_opener (groups : List Bracket) (hb : b ≠ .angle) :
    nestStep groups b.opener = some (b :: groups) := by
  cases b with
  | angle => exact absurd rfl hb
  | _ => rfl

private theorem nest_closer_eq_nil {groups : List Bracket} (hb : b ≠ .angle) :
    nest groups [b.closer] = some [] ↔ groups = [b] := by
  constructor
  · intro h
    obtain ⟨outer, hstep, hnil⟩ := Option.bind_eq_some_iff.1 ((nest_cons _ _).symm.trans h)
    obtain rfl : outer = [] := Option.some.inj hnil
    have hlength : groups.length = 1 := by
      have hcount := length_nestStep hstep
      cases b with
      | angle => exact absurd rfl hb
      | _ => exact hcount.symm
    obtain ⟨a, rfl⟩ := List.length_eq_one_iff.1 hlength
    cases b <;> cases a <;> first | rfl | cases hstep
  · rintro rfl
    cases b with
    | angle => exact absurd rfl hb
    | _ => rfl

/-- A pair whose group stays open until the end can be left out. -/
theorem Inside.balanced_iff (h : Inside b [b] (some b.opener) u b.closer) (hb : b ≠ .angle) :
    Balanced (b.opener :: (u ++ [b.closer])) ↔ Balanced u := by
  have hpair : Balanced (b.opener :: (u ++ [b.closer])) ↔ nest [b] u = some [b] := by
    unfold Balanced
    rw [nest_cons, nestStep_opener _ hb, Option.bind_some, nest_append]
    constructor
    · intro hnest
      obtain ⟨groups, hu, hcloser⟩ := Option.bind_eq_some_iff.1 hnest
      rw [hu, (nest_closer_eq_nil hb).1 hcloser]
    · intro hnest
      rw [hnest]
      exact (nest_closer_eq_nil hb).2 rfl
  rw [hpair]
  constructor
  · intro hnest
    have hlength := length_nest hnest
    obtain ⟨groups, hgroups, hu⟩ := @nest_of_nest_append [] _ _ _ hnest (by
      rintro s v rfl
      have hv := h.openers_le hb
      rw [openers_append, closers_append] at hlength
      rw [List.length_nil]
      omega)
    rw [List.self_eq_append_left.1 hgroups] at hu
    exact hu
  · intro hu
    exact @nest_append_groups _ _ [b] _ hu

private theorem brackets_angle (u : Text) : brackets ('<' :: (u ++ ['>'])) = brackets u := by
  rw [brackets, List.filter_cons_of_neg (by decide)]
  exact (brackets_append u ['>']).trans (List.append_nil _)

/-- A pair of brackets wraps a text that it begins and ends if the depths say so. -/
theorem isWrapped_eq_true_iff {kinds : List Bracket} : isWrapped kinds t = true ↔
    ∃ b ∈ kinds, ∃ u, t = Bracket.opener b :: (u ++ [b.closer]) ∧ wraps (depths t) = true := by
  constructor
  · intro h
    match t with
    | [] => cases h
    | [_] => cases h
    | c :: d :: rest =>
      unfold isWrapped at h
      dsimp only at h
      split at h
      · rename_i b hb
        obtain ⟨hsides, hwraps⟩ := Bool.and_eq_true_iff.1 h
        obtain ⟨hkind, hcloser⟩ := Bool.and_eq_true_iff.1 hsides
        obtain ⟨u, hu⟩ := List.getLast?_eq_some_iff.1 (eq_of_beq hcloser)
        exact ⟨b, List.contains_iff_mem.1 hkind, u, by rw [Bracket.ofOpener?_eq_some_iff.1 hb, hu], hwraps⟩
      · cases h
  · rintro ⟨b, hkind, u, rfl, hwraps⟩
    have hne : u ++ [b.closer] ≠ [] := List.append_ne_nil_of_right_ne_nil u (List.cons_ne_nil _ [])
    obtain ⟨d, rest, hrest⟩ := List.exists_cons_of_ne_nil hne
    have hcloser : (d :: rest).getLast? = some b.closer := hrest ▸ List.getLast?_concat
    rw [hrest] at hwraps ⊢
    unfold isWrapped
    dsimp only
    rw [Bracket.ofOpener?_eq_some_iff.2 rfl]
    simp only [hwraps, hcloser, List.contains_iff_mem.2 hkind, beq_self_eq_true, Bool.and_self]

theorem exists_of_isWrapped {kinds : List Bracket} (h : isWrapped kinds t = true) :
    ∃ b u, t = Bracket.opener b :: (u ++ [b.closer]) ∧ wraps (depths t) = true := by
  obtain ⟨b, -, u, ht, hwraps⟩ := isWrapped_eq_true_iff.1 h
  exact ⟨b, u, ht, hwraps⟩

/-- Behind the opener of a group the depths are those inside it. -/
theorem wraps_iff_inside (hopening : Bracket.opening b.opener (u ++ [b.closer]).head? = some b) :
    wraps (depths (b.opener :: (u ++ [b.closer]))) = true ↔ Inside b [b] (some b.opener) u b.closer := by
  have hdepths : depths (b.opener :: (u ++ [b.closer])) =
      0 :: depthsWithin [b] [b].length (some b.opener) (u ++ [b.closer]) := by
    have hcons := depthsWithin_cons [] none b.opener (u ++ [b.closer])
    rw [turned_of_opening hopening] at hcons
    exact hcons
  rw [hdepths, wraps, List.tail_cons, List.getLast?_cons_of_ne_nil (depthsWithin_ne_nil _ _ u _), Bool.and_eq_true,
    List.all_eq_true, beq_iff_eq]
  constructor
  · rintro ⟨hinside, houtside⟩
    exact ⟨rfl, fun d hd => of_decide_eq_true (hinside d hd), houtside⟩
  · intro h
    exact ⟨fun d hd => decide_eq_true (h.inside d hd), h.outside⟩

/-- Round and square brackets open a group before every character. -/
theorem opening_opener (hb : b ≠ .angle) (next : Option Char) : Bracket.opening b.opener next = some b := by
  cases b with
  | angle => exact absurd rfl hb
  | _ => rfl

/-- What a pair wraps is balanced exactly if all of it is. -/
theorem balanced_inner_iff {kinds : List Bracket} (h : isWrapped kinds t = true) : Balanced t.inner ↔ Balanced t := by
  obtain ⟨b, u, rfl, hwraps⟩ := exists_of_isWrapped h
  have hinner : inner (b.opener :: (u ++ [b.closer])) = u := List.dropLast_concat
  rw [hinner]
  by_cases hb : b = .angle
  · -- an angle pair adds no round or square bracket
    subst hb
    exact (balanced_iff_of_brackets (brackets_angle u)).symm
  · exact (((wraps_iff_inside (opening_opener hb _)).1 hwraps).balanced_iff hb).symm

theorem balanced_peel_iff (kinds : List Bracket) (t : Text) : Balanced (peel kinds t) ↔ Balanced t := by
  induction t using peel.induct kinds with
  | case1 t h ih =>
    rw [peel, dif_pos h, ih, balanced_inner_iff h, balanced_trim_iff]
  | case2 t h =>
    rw [peel, dif_neg h, balanced_trim_iff]

end BlockScript.Text
