import BlockScript.Vocabulary.Form

/-!
# What a form shows

A text that matches a form is one piece of text after the other, each of which one piece of the form allows
(`Piece.Shows`).  Which of the ways to read a text is tried first makes no difference for this.

* `Form.exists_of_lookup_match?`: a slot is bound to a text that its piece allows;
* `Form.exists_of_mem_match?`: a text that matches holds a character of each set that the form requires.

In the other direction, `Form.match?_exactly`, `Form.match?_gap` and `Piece.runShortest_eq_some` run a form on a text
piece by piece.
-/

namespace BlockScript

namespace Piece

/-- The texts that a piece allows. -/
def Shows : Piece → Text → Prop
  | oneOf set, u => ∃ c ∈ set, u = [c]
  | optional set, u => u = [] ∨ ∃ c ∈ set, u = [c]
  | gap required, u => (∀ c ∈ u, isBlank c = true) ∧ (required = true → u ≠ [])
  | marker, u => u = [] ∨ ∃ blanks, blanks ≠ [] ∧ (∀ c ∈ blanks, isBlank c = true) ∧ u = blanks ++ ['v']
  | ahead _, u => u = []
  | shortest _, u => u ≠ [] ∧ '\n' ∉ u
  | longest _, u => u ≠ [] ∧ '\n' ∉ u
  | word _ options, u => u ∈ options

/-- What a piece binds if it takes a text. -/
def bound (p : Piece) (u : Text) : Bindings :=
  p.slot?.toList.map fun slot => (slot, u.trim)

variable {next : Continuation}

private theorem exists_of_runOneOf {set : List Char} {values : Bindings} : ∀ {t : Text},
    runOneOf set next t = some values → ∃ c ∈ set, ∃ rest, t = c :: rest ∧ next rest = some values
  | c :: rest, h => by
    rw [runOneOf] at h
    split at h
    · rename_i hc
      exact ⟨c, List.contains_iff_mem.1 hc, rest, rfl, h⟩
    · cases h

private theorem exists_of_runGap {values : Bindings} : ∀ {t : Text} {required : Bool},
    runGap next required t = some values →
      ∃ u rest, t = u ++ rest ∧ (gap required).Shows u ∧ next rest = some values
  | [], required, h => by
    unfold runGap at h
    split at h
    · cases h
    · rename_i hrequired
      exact ⟨[], [], rfl, ⟨(fun c hc => nomatch hc), fun hr => absurd hr hrequired⟩, h⟩
  | c :: t, required, h => by
    -- nothing is taken, unless the gap begins with a blank
    have hnone (h : (if required then none else next (c :: t)) = some values) :
        ∃ u rest, c :: t = u ++ rest ∧ (gap required).Shows u ∧ next rest = some values := by
      split at h
      · cases h
      · rename_i hrequired
        exact ⟨[], c :: t, rfl, ⟨(fun c hc => nomatch hc), fun hr => absurd hr hrequired⟩, h⟩
    unfold runGap at h
    split at h
    · rename_i hblank
      rcases Option.or_eq_some_iff.1 h with h | ⟨-, h⟩
      · obtain ⟨u, rest, rfl, ⟨hu, -⟩, hnext⟩ := exists_of_runGap h
        exact ⟨c :: u, rest, rfl, ⟨List.forall_mem_cons.2 ⟨hblank, hu⟩, fun _ => List.cons_ne_nil _ _⟩, hnext⟩
      · exact hnone h
    · exact hnone h

private theorem exists_of_runShortest {found : Text × Bindings} : ∀ {t : Text},
    runShortest next t = some found →
      ∃ rest, t = found.1 ++ rest ∧ found.1 ≠ [] ∧ '\n' ∉ found.1 ∧ next rest = some found.2
  | c :: t, h => by
    unfold runShortest at h
    split at h
    · cases h
    · rename_i hc
      split at h
      · rename_i values hnext
        obtain rfl := Option.some.inj h
        exact ⟨t, rfl, List.cons_ne_nil _ _, by simpa using Ne.symm hc, hnext⟩
      · obtain ⟨found', hfound, rfl⟩ := Option.map_eq_some_iff.1 h
        obtain ⟨rest, rfl, -, hline, hnext⟩ := exists_of_runShortest hfound
        exact ⟨rest, rfl, List.cons_ne_nil _ _, by simpa using ⟨Ne.symm hc, hline⟩, hnext⟩

private theorem exists_of_runLongest {found : Text × Bindings} : ∀ {t : Text},
    runLongest next t = some found →
      ∃ rest, t = found.1 ++ rest ∧ found.1 ≠ [] ∧ '\n' ∉ found.1 ∧ next rest = some found.2
  | c :: t, h => by
    unfold runLongest at h
    split at h
    · cases h
    · rename_i hc
      split at h
      · rename_i found' hfound
        obtain rfl := Option.some.inj h
        obtain ⟨rest, rfl, -, hline, hnext⟩ := exists_of_runLongest hfound
        exact ⟨rest, rfl, List.cons_ne_nil _ _, by simpa using ⟨Ne.symm hc, hline⟩, hnext⟩
      · obtain ⟨values, hnext, rfl⟩ := Option.map_eq_some_iff.1 h
        exact ⟨t, rfl, List.cons_ne_nil _ _, by simpa using Ne.symm hc, hnext⟩

/-- A piece takes a text that it allows and leaves the rest to what follows. -/
theorem exists_of_run {p : Piece} {t : Text} {values : Bindings} (h : p.run next t = some values) :
    ∃ u rest found, t = u ++ rest ∧ p.Shows u ∧ next rest = some found ∧ values = p.bound u ++ found := by
  cases p with
  | oneOf set =>
    obtain ⟨c, hc, rest, rfl, hnext⟩ := exists_of_runOneOf h
    exact ⟨[c], rest, values, rfl, ⟨c, hc, rfl⟩, hnext, rfl⟩
  | optional set =>
    rcases Option.or_eq_some_iff.1 h with h | ⟨-, h⟩
    · obtain ⟨c, hc, rest, rfl, hnext⟩ := exists_of_runOneOf h
      exact ⟨[c], rest, values, rfl, .inr ⟨c, hc, rfl⟩, hnext, rfl⟩
    · exact ⟨[], t, values, rfl, .inl rfl, h, rfl⟩
  | gap required =>
    obtain ⟨u, rest, rfl, hu, hnext⟩ := exists_of_runGap h
    exact ⟨u, rest, values, rfl, hu, hnext, rfl⟩
  | marker =>
    rcases Option.or_eq_some_iff.1 h with h | ⟨-, h⟩
    · obtain ⟨u, rest, rfl, hu, hv⟩ := exists_of_runGap h
      obtain ⟨c, hc, rest, rfl, hnext⟩ := exists_of_runOneOf hv
      obtain rfl := List.mem_singleton.1 hc
      exact ⟨u ++ ['v'], rest, values, by simp, .inr ⟨u, hu.2 rfl, hu.1, rfl⟩, hnext, rfl⟩
    · exact ⟨[], t, values, rfl, .inl rfl, h, rfl⟩
  | ahead set =>
    have hnext : (if t.head?.any set.contains then next t else none) = some values := h
    split at hnext
    · exact ⟨[], t, values, rfl, rfl, hnext, rfl⟩
    · cases hnext
  | shortest slot =>
    obtain ⟨found, hfound, rfl⟩ := Option.map_eq_some_iff.1 h
    obtain ⟨rest, rfl, hne, hline, hnext⟩ := exists_of_runShortest hfound
    exact ⟨found.1, rest, found.2, rfl, ⟨hne, hline⟩, hnext, rfl⟩
  | longest slot =>
    obtain ⟨found, hfound, rfl⟩ := Option.map_eq_some_iff.1 h
    obtain ⟨rest, rfl, hne, hline, hnext⟩ := exists_of_runLongest hfound
    exact ⟨found.1, rest, found.2, rfl, ⟨hne, hline⟩, hnext, rfl⟩
  | word slot options =>
    obtain ⟨u, hu, hrun⟩ := List.exists_of_findSome?_eq_some h
    obtain ⟨found, hfound, rfl⟩ := Option.map_eq_some_iff.1 hrun
    obtain ⟨rest, hrest, hnext⟩ := Option.bind_eq_some_iff.1 hfound
    exact ⟨u, rest, found, Text.after?_eq_some_iff.1 hrest, hu, hnext, rfl⟩

/-- A slot takes a text if what follows matches behind it, and behind no shorter text. -/
theorem runShortest_eq_some {u rest : Text} {values : Bindings} (hne : u ≠ []) (hline : '\n' ∉ u)
    (hshorter : ∀ v, v ≠ [] → v <:+ u → next (v ++ rest) = none) (hnext : next rest = some values) :
    runShortest next (u ++ rest) = some (u, values) := by
  induction u with
  | nil => exact absurd rfl hne
  | cons c u ih =>
    rw [List.mem_cons, not_or] at hline
    obtain ⟨hc, hline⟩ := hline
    rw [List.cons_append, runShortest, if_neg (Ne.symm hc)]
    by_cases hu : u = []
    · subst hu
      rw [List.nil_append, hnext]
    · rw [hshorter u hu (List.suffix_cons c u)]
      rw [ih hu hline fun v hv hsuffix => hshorter v hv (hsuffix.trans (List.suffix_cons c u))]
      rfl

end Piece

namespace Form

variable {form : Form} {t : Text} {values : Bindings}

/-- The text of a slot is a part of the whole text that a piece for the slot allows. -/
theorem exists_of_lookup_match? {slot : String} {w : Text} (h : form.match? t = some values)
    (hw : values.lookup slot = some w) :
    ∃ p ∈ form, p.slot? = some slot ∧ ∃ u, p.Shows u ∧ w = u.trim ∧ u <:+: t := by
  induction form generalizing t values with
  | nil =>
    unfold match? at h
    split at h
    · obtain rfl := Option.some.inj h
      cases hw
    · cases h
  | cons p form ih =>
    obtain ⟨u, rest, found, rfl, hu, hnext, rfl⟩ := Piece.exists_of_run h
    have hrest (hw : found.lookup slot = some w) :
        ∃ q ∈ p :: form, q.slot? = some slot ∧ ∃ v, q.Shows v ∧ w = v.trim ∧ v <:+: u ++ rest := by
      obtain ⟨q, hq, hslot, v, hshows, htrim, hpart⟩ := ih hnext hw
      exact ⟨q, List.mem_cons_of_mem _ hq, hslot, v, hshows, htrim, hpart.trans (List.suffix_append u rest).isInfix⟩
    unfold Piece.bound at hw
    cases hp : p.slot? with
    | none =>
      rw [hp] at hw
      exact hrest hw
    | some name =>
      rw [hp] at hw
      by_cases hname : slot = name
      · subst hname
        rw [Option.toList, List.map_cons, List.map_nil, List.singleton_append, List.lookup_cons_self] at hw
        exact ⟨p, List.mem_cons_self, hp, u, hu, (Option.some.inj hw).symm, (List.prefix_append u rest).isInfix⟩
      · rw [Option.toList, List.map_cons, List.map_nil, List.singleton_append, List.lookup_cons] at hw
        rw [show (slot == name) = false from beq_false_of_ne hname] at hw
        exact hrest hw

/-- A text that matches holds one of the characters that the form requires at some place. -/
theorem exists_of_mem_match? {set : List Char} (hset : Piece.oneOf set ∈ form) (h : form.match? t = some values) :
    ∃ c ∈ set, c ∈ t := by
  induction form generalizing t values with
  | nil => cases hset
  | cons p form ih =>
    obtain ⟨u, rest, found, rfl, hu, hnext, -⟩ := Piece.exists_of_run h
    rcases List.mem_cons.1 hset with rfl | hset
    · obtain ⟨c, hc, rfl⟩ := hu
      exact ⟨c, hc, List.mem_append_left _ (List.mem_singleton.2 rfl)⟩
    · obtain ⟨c, hc, hrest⟩ := ih hset hnext
      exact ⟨c, hc, List.mem_append_right _ hrest⟩

/-- Spelled text is taken as it is. -/
theorem match?_exactly (w : Text) (form : Form) (t : Text) : match? (exactly w ++ form) (w ++ t) = match? form t := by
  induction w with
  | nil => rfl
  | cons c w ih =>
    have hc : [c].contains c = true := by simp
    show Piece.runOneOf [c] (match? (exactly w ++ form)) (c :: (w ++ t)) = _
    rw [Piece.runOneOf, if_pos hc, ih]

theorem exists_of_match?_exactly {w : Text} (h : match? (exactly w ++ form) t = some values) :
    ∃ rest, t = w ++ rest ∧ form.match? rest = some values := by
  induction w generalizing t with
  | nil => exact ⟨t, rfl, h⟩
  | cons c w ih =>
    obtain ⟨u, tail, _, rfl, ⟨d, hd, rfl⟩, htail, rfl⟩ := Piece.exists_of_run (p := .oneOf [c]) h
    obtain rfl := List.mem_singleton.1 hd
    obtain ⟨rest, rfl, hrest⟩ := ih htail
    exact ⟨rest, rfl, hrest⟩

/-- A gap takes a blank if what follows matches behind it. -/
theorem match?_gap {required : Bool} {c : Char} (hc : isBlank c = false) (h : form.match? (c :: t) = some values) :
    match? (.gap required :: form) (' ' :: c :: t) = some values := by
  have hblank : isBlank ' ' = true := by decide
  show Piece.runGap form.match? required (' ' :: c :: t) = _
  rw [Piece.runGap, if_pos hblank, Piece.runGap, if_neg (by rw [hc]; decide), if_neg (by decide), h, Option.some_or]

/-- The characters with which a form begins do not allow the given one. -/
def excludes (c : Char) : Form → Bool
  | .oneOf set :: _ => !set.contains c
  | _ => false

theorem match?_eq_none_of_excludes {c : Char} (h : form.excludes c = true) (t : Text) :
    form.match? (c :: t) = none := by
  match form, h with
  | .oneOf set :: form, h =>
    show Piece.runOneOf set (match? form) (c :: t) = none
    rw [Piece.runOneOf, if_neg (by simpa [excludes] using h)]

end Form

end BlockScript
