import BlockScript.Proofs.Text.Tokens
import BlockScript.Proofs.Vocabulary.Template
import BlockScript.Vocabulary.Operation

/-!
# Filled patterns

A pattern with texts in the place of its slots is a text that the form of the pattern reads, and the form gives these
texts back (`Pattern.match?_filled`).  The texts may imitate the words of the pattern, or end in the mark of a
dropdown, as long as they hold no brackets: the first closer behind an entry is that of its placeholder.

A choice takes only its own words.  They are told apart if no word begins another one, the mark of the dropdown
included (`TellsApart`).
-/

namespace BlockScript

/-- A text that can stand in a placeholder: one line without brackets and without blanks at its ends. -/
structure Text.IsEntry (t : Text) : Prop extends IsTrimmed t where
  inner : ∀ c ∈ t, isInner c = true

theorem Text.isEntry_iff {t : Text} :
    t.IsEntry ↔ t.head?.any (!isBlank ·) && t.getLast?.any (!isBlank ·) && t.all isInner := by
  simp only [Bool.and_eq_true, Option.any_eq_true, Bool.not_eq_true', List.all_eq_true]
  constructor
  · rintro ⟨⟨⟨c, rest, hfirst, hc⟩, ⟨front, d, hlast, hd⟩⟩, hinner⟩
    exact ⟨⟨⟨c, by simp [hfirst], hc⟩, ⟨d, by simp [hlast], hd⟩⟩, hinner⟩
  · rintro ⟨⟨⟨c, hfirst, hc⟩, ⟨d, hlast, hd⟩⟩, hinner⟩
    obtain ⟨front, hfront⟩ := List.getLast?_eq_some_iff.1 hlast
    exact ⟨⟨⟨c, _, List.eq_cons_of_mem_head? hfirst, hc⟩, ⟨front, d, hfront, hd⟩⟩, hinner⟩

instance : DecidablePred Text.IsEntry := fun _ => decidable_of_iff _ Text.isEntry_iff.symm

theorem Text.IsEntry.oneLine {t : Text} (h : t.IsEntry) : '\n' ∉ t :=
  fun hmem => absurd (h.inner _ hmem) (by decide)

/-- An entry of a value stays as it is. -/
theorem Text.IsEntry.bare {t : Text} (h : t.IsEntry) : t.bare = t := by
  refine peel_of_first h.toIsTrimmed fun c hc => ?_
  have hinner := h.inner c (List.mem_of_mem_head? hc)
  simp only [isInner, Bool.and_eq_true, Option.isNone_iff_eq_none] at hinner
  exact hinner.1.2

/-- The text ends in a blank and the letter `v`, as if it had the mark of a dropdown. -/
def Text.EndsInMark (t : Text) : Prop :=
  ∃ front c, isBlank c = true ∧ t = front ++ [c, 'v']

theorem Text.endsInMark_iff {t : Text} :
    t.EndsInMark ↔ t.getLast? = some 'v' ∧ t.dropLast.getLast?.any isBlank = true := by
  constructor
  · rintro ⟨front, c, hc, rfl⟩
    rw [List.append_cons]
    simpa using hc
  · rintro ⟨hlast, hblank⟩
    obtain ⟨front, rfl⟩ := List.getLast?_eq_some_iff.1 hlast
    rw [List.dropLast_concat] at hblank
    obtain ⟨c, hc, hc'⟩ := (Option.any_eq_true _ _).1 hblank
    obtain ⟨front, rfl⟩ := List.getLast?_eq_some_iff.1 hc
    exact ⟨front, c, hc', by simp⟩

instance : DecidablePred Text.EndsInMark := fun _ => decidable_of_iff _ Text.endsInMark_iff.symm

/-- Whether a text can stand in a slot. -/
def Slot.Takes (slot : Slot) (t : Text) : Prop :=
  match slot.kind with
  | .choice options => t ∈ options.map String.toList
  | _ => t.IsEntry

instance (slot : Slot) : DecidablePred slot.Takes := fun t =>
  match slot with
  | ⟨_, .choice options⟩ => inferInstanceAs (Decidable (t ∈ options.map String.toList))
  | ⟨_, .literal _⟩ => inferInstanceAs (Decidable t.IsEntry)
  | ⟨_, .menu _⟩ => inferInstanceAs (Decidable t.IsEntry)
  | ⟨_, .boolean⟩ => inferInstanceAs (Decidable t.IsEntry)
  | ⟨_, .raw⟩ => inferInstanceAs (Decidable t.IsEntry)
  | ⟨_, .variableName⟩ => inferInstanceAs (Decidable t.IsEntry)
  | ⟨_, .field⟩ => inferInstanceAs (Decidable t.IsEntry)

/-- The part of a pattern with texts in the place of the names of its slots. -/
def Segment.filled (values : String → Text) : Segment → Text
  | spelled t => t
  | slot p => p.fill (values (String.ofList p.name))

/-- The placeholder that a part of a pattern is. -/
def Segment.placeholder? : Segment → Option Placeholder
  | spelled _ => none
  | slot p => some p

/-- A pattern with texts in the place of the names of its slots. -/
def Pattern.filled (values : String → Text) (pattern : Text) : Text :=
  (segments pattern).flatMap (Segment.filled values)

/-- A pattern is filled with the names of its slots. -/
theorem Pattern.filled_toList (pattern : Text) : filled String.toList pattern = pattern := by
  have h : Segment.filled String.toList = Segment.written := by
    funext segment
    cases segment <;> simp [Segment.filled, Segment.written, Placeholder.written]
  rw [filled, h, flatMap_written_segments]

/-! ### Single pieces -/

namespace Form

variable {set : List Char} {form : Form} {c : Char} {t u rest : Text} {values : Bindings}

theorem match?_oneOf (hc : c ∈ set) (h : form.match? t = some values) :
    match? (.oneOf set :: form) (c :: t) = some values := by
  show Piece.runOneOf set form.match? (c :: t) = _
  rw [Piece.runOneOf, if_pos (List.contains_iff_mem.2 hc), h]

theorem match?_oneOf_eq_none (hc : c ∉ set) : match? (.oneOf set :: form) (c :: t) = none := by
  show Piece.runOneOf set form.match? (c :: t) = none
  rw [Piece.runOneOf, if_neg (by simpa using hc)]

theorem match?_optional (hc : c ∈ set) (h : form.match? t = some values) :
    match? (.optional set :: form) (c :: t) = some values := by
  show (Piece.runOneOf set form.match? (c :: t)).or _ = _
  rw [Piece.runOneOf, if_pos (List.contains_iff_mem.2 hc), h, Option.some_or]

/-- A gap takes all blanks in front of what follows. -/
theorem runGap_blanks {next : Continuation} {required : Bool} (hu : ∀ c ∈ u, isBlank c = true)
    (hne : required = true → u ≠ []) (hrest : ∀ c ∈ rest.head?, isBlank c = false)
    (h : next rest = some values) : Piece.runGap next required (u ++ rest) = some values := by
  induction u generalizing required with
  | nil =>
    have hrequired : required = false := by simpa using hne
    subst hrequired
    cases rest with
    | nil => exact h
    | cons c rest => rw [List.nil_append, Piece.runGap, if_neg (by simp [hrest c rfl]), if_neg (by decide), h]
  | cons c u ih =>
    obtain ⟨hc, hu⟩ := List.forall_mem_cons.1 hu
    rw [List.cons_append, Piece.runGap, if_pos hc, ih hu (by simp), Option.some_or]

theorem match?_marker (h : form.match? t = some values) :
    match? (.marker :: form) (' ' :: 'v' :: t) = some values := by
  have hv : match? (.oneOf ['v'] :: form) ('v' :: t) = some values := match?_oneOf List.mem_cons_self h
  show (Piece.runGap (match? (.oneOf ['v'] :: form)) true ([' '] ++ 'v' :: t)).or _ = _
  rw [runGap_blanks (List.forall_mem_singleton.2 (by decide)) (by simp) (by simp; decide) hv, Option.some_or]

/-! ### Spelled text -/

private theorem match?_spelledForm_blanks (t : Text) : ∀ {previous : Option Char} {u : Text},
    (∀ c ∈ u, isBlank c = true) → (u ≠ [] → ∃ c ∈ t.head?, isBlank c = true) →
    (∀ c ∈ rest.head?, isBlank c = false) → form.match? rest = some values →
      match? (Pattern.spelledForm previous t ++ form) (u ++ (t ++ rest)) = some values := by
  induction t with
  | nil =>
    intro previous u _ hfirst _ h
    obtain rfl : u = [] := by
      by_contra hne
      obtain ⟨c, hc, -⟩ := hfirst hne
      cases hc
    exact h
  | cons c t ih =>
    intro previous u hu hfirst hrest h
    by_cases hc : isBlank c = true
    · have hblanks : ∀ d ∈ u ++ [c], isBlank d = true := by simpa [or_imp, forall_and] using ⟨hu, hc⟩
      have htext : u ++ (c :: t ++ rest) = (u ++ [c]) ++ (t ++ rest) := by simp
      rw [htext]
      unfold Pattern.spelledForm
      rw [if_pos hc]
      cases t with
      | nil => exact runGap_blanks hblanks (by simp) (by simpa using hrest) h
      | cons d t =>
        by_cases hd : isBlank d = true
        · -- blanks in a row make one gap
          simp only [hd, if_true]
          exact ih hblanks (fun _ => ⟨d, rfl, hd⟩) hrest h
        · simp only [hd, if_false, Bool.false_eq_true, List.cons_append]
          have hd' : isBlank d = false := by simpa using hd
          exact runGap_blanks hblanks (by simp) (by simpa using hd') (ih (u := []) (by simp) (by simp) hrest h)
    · obtain rfl : u = [] := by
        by_contra hne
        obtain ⟨d, hd, hblank⟩ := hfirst hne
        obtain rfl : c = d := by simpa using hd
        exact hc hblank
      have htail := @ih (some c) [] (by simp) (by simp) hrest h
      unfold Pattern.spelledForm
      rw [if_neg hc]
      split
      · exact match?_optional List.mem_cons_self htail
      · exact match?_oneOf List.mem_cons_self htail

/-- The form of spelled text reads this text. -/
theorem match?_spelledForm (previous : Option Char) (t : Text) (hrest : ∀ c ∈ rest.head?, isBlank c = false)
    (h : form.match? rest = some values) :
    match? (Pattern.spelledForm previous t ++ form) (t ++ rest) = some values :=
  match?_spelledForm_blanks t (u := []) (by simp) (by simp) hrest h

/-! ### Entries -/

/-- Characters that end an entry. -/
def EndsEntry (set : List Char) : Prop :=
  ∀ c ∈ set, isInner c = false ∧ isBlank c = false

instance : DecidablePred EndsEntry := fun set =>
  List.decidableBAll _ set

/-- An entry ends at the first closer. -/
theorem match?_shortest_oneOf {slot : String} {w : Text} (hw : w.IsEntry) (hset : EndsEntry set)
    (hc : c ∈ set) (h : form.match? rest = some values) :
    match? (.shortest slot :: .oneOf set :: form) (w ++ c :: rest) = some ((slot, w) :: values) := by
  have hshorter : ∀ v : Text, v ≠ [] → v <:+ w → match? (.oneOf set :: form) (v ++ c :: rest) = none := by
    intro v hv hsuffix
    obtain ⟨d, v, rfl⟩ := List.exists_cons_of_ne_nil hv
    have hd : isInner d = true := hw.inner d (hsuffix.mem List.mem_cons_self)
    exact match?_oneOf_eq_none fun hmem => by simp [(hset d hmem).1] at hd
  have hshortest := Piece.runShortest_eq_some hw.ne_nil hw.oneLine hshorter (match?_oneOf hc h)
  show Option.map (Piece.bind slot) (Piece.runShortest (match? (.oneOf set :: form)) _) = _
  rw [hshortest, Option.map_some, Piece.bind, Text.trim_eq_self hw.toIsTrimmed]

/-- What stands between an entry and its closer: the mark of a dropdown, or nothing behind an entry that does not
itself end in one. -/
def Marks (mark w : Text) : Prop :=
  mark = [' ', 'v'] ∨ (mark = [] ∧ ¬w.EndsInMark)

/-- No character of a mark ends an entry. -/
private theorem Marks.inner {mark w : Text} (h : Marks mark w) : ∀ d ∈ mark, isInner d = true := by
  rcases h with rfl | ⟨rfl, -⟩
  · exact List.all_eq_true.1 (by decide)
  · exact fun d hd => nomatch hd

/-- An ending of an entry, with what stands between the entry and its closer, is no mark. -/
private theorem Marks.append_ne {mark w v blanks : Text} (hw : w.IsEntry) (h : Marks mark w) (hne : v ≠ [])
    (hv : v <:+ w) (hblanks_ne : blanks ≠ []) (hblanks : ∀ b ∈ blanks, isBlank b = true) :
    v ++ mark ≠ blanks ++ ['v'] := by
  intro he
  rcases h with rfl | ⟨rfl, hends⟩
  · -- the last character of the entry is no blank
    have hblanks' : v ++ [' '] = blanks := by
      have hmarker : (v ++ [' ']) ++ ['v'] = blanks ++ ['v'] := by simpa using he
      exact List.append_cancel_right hmarker
    obtain ⟨front, d, rfl, hd⟩ := hw.last
    obtain rfl | ⟨v, rfl, -⟩ := List.suffix_concat_iff.1 hv
    · exact hne rfl
    · have hmem : d ∈ blanks := by simp [← hblanks']
      rw [hblanks d hmem] at hd
      cases hd
  · obtain ⟨front, rfl⟩ := hv
    obtain ⟨blanks, b, rfl⟩ := (List.eq_nil_or_concat blanks).resolve_left hblanks_ne
    rw [List.append_nil] at he
    exact hends ⟨front ++ blanks, b, hblanks b (by simp), by simp [he]⟩

/-- Texts without a character of the set are the same if they stand in front of one and the wholes are the same. -/
private theorem eq_of_append_cons_mem {u u' tail tail' : Text} {e : Char} (hu : ∀ d ∈ u, d ∉ set)
    (hu' : ∀ d ∈ u', d ∉ set) (hc : c ∈ set) (he : e ∈ set) (h : u ++ c :: tail = u' ++ e :: tail') : u = u' := by
  have hcut := congrArg (List.takeWhile (!set.contains ·)) h
  rwa [List.takeWhile_append_of_pos (by simpa using hu), List.takeWhile_append_of_pos (by simpa using hu'),
    List.takeWhile_cons_of_neg (by simpa using hc), List.takeWhile_cons_of_neg (by simpa using he), List.append_nil,
    List.append_nil] at hcut

/-- Inside an entry there is no mark in front of a closer. -/
private theorem match?_marker_eq_none {mark w v : Text} (hw : w.IsEntry) (hmark : Marks mark w) (hset : EndsEntry set)
    (hne : v ≠ []) (hv : v <:+ w) (hc : c ∈ set) :
    match? (.marker :: .oneOf set :: form) (v ++ (mark ++ c :: rest)) = none := by
  rw [Option.eq_none_iff_forall_ne_some]
  intro found hfound
  obtain ⟨u, tail, _, htext, hu, htail, -⟩ := Piece.exists_of_run hfound
  obtain ⟨_, tail, _, rfl, ⟨e, he, rfl⟩, -, -⟩ := Piece.exists_of_run htail
  have hinner : ∀ d ∈ v, isInner d = true := fun d hd => hw.inner d (hv.mem hd)
  rcases hu with rfl | ⟨blanks, hblanks_ne, hblanks, rfl⟩
  · obtain ⟨d, v, rfl⟩ := List.exists_cons_of_ne_nil hne
    obtain rfl : d = e := (List.cons.inj htext).1
    simp [(hset d he).1] at hinner
  · have hleft : ∀ d ∈ v ++ mark, d ∉ set := by
      intro d hd hmem
      have hd : isInner d = true := (List.mem_append.1 hd).elim (hinner d) (hmark.inner d)
      simp [(hset d hmem).1] at hd
    have hright : ∀ d ∈ blanks ++ ['v'], d ∉ set := by
      intro d hd hmem
      rcases List.mem_append.1 hd with hd | hd
      · exact absurd (hset d hmem).2 (by simp [hblanks d hd])
      · obtain rfl := List.mem_singleton.1 hd
        exact absurd (hset 'v' hmem).1 (by decide)
    have hwhole : (v ++ mark) ++ c :: rest = (blanks ++ ['v']) ++ e :: tail := by simpa using htext
    exact hmark.append_ne hw hne hv hblanks_ne hblanks (eq_of_append_cons_mem hleft hright hc he hwhole)

/-- The mark of a dropdown may be left out in front of a closer. -/
theorem match?_marker_closer {mark w : Text} (hmark : Marks mark w) (hc : isBlank c = false)
    (h : form.match? (c :: rest) = some values) : match? (.marker :: form) (mark ++ c :: rest) = some values := by
  rcases hmark with rfl | ⟨rfl, -⟩
  · exact match?_marker h
  · show (Piece.runGap (match? (.oneOf ['v'] :: form)) true (c :: rest)).or _ = _
    rw [Piece.runGap, if_neg (by simp [hc]), if_pos rfl, Option.none_or]
    exact h

/-- An entry ends at its mark and the first closer. -/
theorem match?_shortest_marker {slot : String} {mark w : Text} (hw : w.IsEntry) (hmark : Marks mark w)
    (hset : EndsEntry set) (hc : c ∈ set) (h : form.match? rest = some values) :
    match? (.shortest slot :: .marker :: .oneOf set :: form) (w ++ (mark ++ c :: rest)) =
      some ((slot, w) :: values) := by
  have hshorter : ∀ v : Text, v ≠ [] → v <:+ w →
      match? (.marker :: .oneOf set :: form) (v ++ (mark ++ c :: rest)) = none :=
    fun v hv hsuffix => match?_marker_eq_none hw hmark hset hv hsuffix hc
  have hshortest := Piece.runShortest_eq_some hw.ne_nil hw.oneLine hshorter
    (match?_marker_closer hmark (hset c hc).2 (match?_oneOf hc h))
  show Option.map (Piece.bind slot) (Piece.runShortest (match? (.marker :: .oneOf set :: form)) _) = _
  rw [hshortest, Option.map_some, Piece.bind, Text.trim_eq_self hw.toIsTrimmed]

/-! ### Choices -/

/-- The words of a choice are entries, and tried in order of falling length, each of them is found in front of the
mark of the dropdown. -/
abbrev TellsApart (words : List Text) : Prop :=
  ∀ w ∈ words, w.IsEntry ∧ (longestFirst words).find? (·.isPrefixOf (w ++ [' ', 'v'])) = some w

/-- A choice takes the word that stands in front of the closer, or in front of the mark. -/
theorem match?_word_marker {slot : String} {words : List Text} {mark w : Text} (hwords : TellsApart words)
    (hw : w ∈ words) (hmark : mark <+: [' ', 'v']) (hc : isInner c = false)
    (h : match? (.marker :: form) (mark ++ c :: rest) = some values) :
    match? (.word slot (longestFirst words) :: .marker :: form) (w ++ (mark ++ c :: rest)) =
      some ((slot, w) :: values) := by
  obtain ⟨hentry, hfind⟩ := hwords w hw
  obtain ⟨-, before, after, hsplit, hbefore⟩ := List.find?_eq_some_iff_append.1 hfind
  have hearlier : ∀ o ∈ before, Text.after? o (w ++ (mark ++ c :: rest)) = none := by
    intro o ho
    have hmem : o ∈ words := (longestFirst_perm words).mem_iff.1 (by rw [hsplit]; simp [ho])
    rw [Option.eq_none_iff_forall_ne_some]
    intro tail htail
    have htext : (w ++ mark) ++ c :: rest = o ++ tail := by simpa using Text.after?_eq_some_iff.1 htail
    have hprefix : o <+: w ++ mark := by
      rcases List.append_eq_append_iff.1 htext with ⟨x, hx, hx'⟩ | ⟨x, hx, -⟩
      · cases x with
        | nil => exact ⟨[], by simp [hx]⟩
        | cons d x =>
          obtain rfl : c = d := (List.cons.inj hx').1
          have := (hwords o hmem).1.inner c (by simp [hx])
          rw [hc] at this
          cases this
      · exact ⟨x, hx.symm⟩
    have hnot := hbefore o ho
    have hmarked : o <+: w ++ [' ', 'v'] := List.IsPrefix.trans hprefix ((List.prefix_append_right_inj w).2 hmark)
    rw [List.isPrefixOf_iff_prefix.2 hmarked] at hnot
    cases hnot
  have hnone : before.findSome? (fun o => ((Text.after? o (w ++ (mark ++ c :: rest))).bind
      (match? (.marker :: form))).map fun found => Piece.bind slot (o, found)) = none :=
    List.findSome?_eq_none_iff.2 fun o ho => by rw [hearlier o ho, Option.bind_none, Option.map_none]
  show List.findSome? _ (longestFirst words) = _
  rw [hsplit, List.findSome?_append, hnone, Option.none_or, List.findSome?_cons,
    Text.after?_eq_some_iff.2 rfl, Option.bind_some, h, Option.map_some, Piece.bind,
    Text.trim_eq_self hentry.toIsTrimmed]

end Form

/-! ### Placeholders -/

private theorem Bracket.mem_of_ne_angle {b : Bracket} (h : b ≠ .angle) :
    b.opener ∈ ['(', '['] ∧ b.closer ∈ [')', ']'] := by
  cases b with
  | round => decide
  | square => decide
  | angle => exact absurd rfl h

namespace Placeholder

/-- What stands behind the text of a placeholder. -/
def mark (p : Placeholder) : Text :=
  if p.dropdown then [' ', 'v'] else []

theorem fill_append (p : Placeholder) (w rest : Text) :
    p.fill w ++ rest = p.bracket.opener :: (w ++ (p.mark ++ p.bracket.closer :: rest)) := by
  simp [fill, mark]

/-- A placeholder fits its slot: conditions stand in angle brackets without a mark, and nothing else does; the words of
a choice are told apart. -/
abbrev Fits (p : Placeholder) (slot : Slot) : Prop :=
  (p.bracket = .angle ↔ slot.kind = .boolean) ∧ (p.dropdown = true → slot.kind ≠ .boolean) ∧
    Form.TellsApart (slot.kind.options.map String.toList)

/-- A placeholder fits its slot and shows the mark of a dropdown. -/
abbrev Suits (p : Placeholder) (slot : Slot) : Prop :=
  p.Fits slot ∧ (slot.kind.isDropdown = true → p.dropdown = true)

/-- A text stands in a placeholder as it is: if the mark of a dropdown could follow but is not written, the text does
not end in one. -/
structure Holds (p : Placeholder) (slot : Slot) (w : Text) : Prop where
  takes : slot.Takes w
  ends : slot.kind.isDropdown = true → p.dropdown = false → ¬w.EndsInMark

instance (p : Placeholder) (slot : Slot) : DecidablePred (p.Holds slot) := fun w =>
  decidable_of_iff (slot.Takes w ∧ (slot.kind.isDropdown = true → p.dropdown = false → ¬w.EndsInMark))
    ⟨fun h => ⟨h.1, h.2⟩, fun h => ⟨h.takes, h.ends⟩⟩

variable {p : Placeholder} {slot : Slot} {w : Text}

theorem Suits.holds (h : p.Suits slot) (hw : slot.Takes w) : p.Holds slot w := by
  refine ⟨hw, fun hdropdown hmark => ?_⟩
  rw [h.2 hdropdown] at hmark
  cases hmark

theorem Holds.marks (h : p.Holds slot w) (hmarked : (p.dropdown || slot.kind.isDropdown) = true) :
    Form.Marks p.mark w := by
  unfold mark
  cases hd : p.dropdown with
  | true => exact .inl rfl
  | false =>
    rw [hd, Bool.false_or] at hmarked
    exact .inr ⟨rfl, h.ends hmarked hd⟩

end Placeholder

namespace Pattern

variable {form : Form} {p : Placeholder} {w rest : Text} {values : Bindings}

private theorem match?_valueForm (slot : String) {marked : Bool} (hp : p.bracket ≠ .angle) (hw : w.IsEntry)
    (hmarked : marked = true → Form.Marks p.mark w) (hplain : marked = false → p.mark = [])
    (h : form.match? rest = some values) :
    Form.match? ((if marked then
      [.oneOf ['(', '['], .shortest slot, .marker, .oneOf [')', ']']]
    else
      [.oneOf ['(', '['], .shortest slot, .oneOf [')', ']']]) ++ form) (p.fill w ++ rest) =
      some ((slot, w) :: values) := by
  have hends : Form.EndsEntry [')', ']'] := by decide
  obtain ⟨hopener, hcloser⟩ := Bracket.mem_of_ne_angle hp
  rw [Placeholder.fill_append]
  cases marked with
  | true => exact Form.match?_oneOf hopener (Form.match?_shortest_marker hw (hmarked rfl) hends hcloser h)
  | false =>
    rw [hplain rfl, List.nil_append]
    exact Form.match?_oneOf hopener (Form.match?_shortest_oneOf hw hends hcloser h)

/-- The form of a slot takes what its placeholder holds. -/
theorem match?_slotForm {slot : Slot} (hp : p.Fits slot) (hw : p.Holds slot w) (h : form.match? rest = some values) :
    Form.match? (slotForm slot p.dropdown ++ form) (p.fill w ++ rest) = some ((slot.name, w) :: values) := by
  obtain ⟨name, kind⟩ := slot
  obtain ⟨hangle, hplain, hwords⟩ := hp
  have hvalue (hkind : kind ≠ .boolean) (hentry : w.IsEntry) :=
    have hunmarked (hmarked : (p.dropdown || kind.isDropdown) = false) : p.mark = [] := by
      rw [Placeholder.mark, (Bool.or_eq_false_iff.1 hmarked).1]
      rfl
    match?_valueForm name (fun hb => hkind (hangle.1 hb)) hentry hw.marks hunmarked h
  have htakes := hw.takes
  cases kind with
  | literal kind => exact hvalue SlotKind.noConfusion htakes
  | menu m => exact hvalue SlotKind.noConfusion htakes
  | raw => exact hvalue SlotKind.noConfusion htakes
  | variableName => exact hvalue SlotKind.noConfusion htakes
  | field => exact hvalue SlotKind.noConfusion htakes
  | boolean =>
    have hmark : p.dropdown = false := by
      rw [Bool.eq_false_iff]
      exact fun hd => hplain hd rfl
    have htext : p.fill w ++ rest = '<' :: (w ++ '>' :: rest) := by
      simp [Placeholder.fill, hangle.2 rfl, hmark, Bracket.opener, Bracket.closer]
    rw [htext]
    exact Form.match?_oneOf (by decide) (Form.match?_shortest_oneOf htakes (by decide) (by decide) h)
  | choice options =>
    have hne : options ≠ [] := by
      rintro rfl
      cases htakes
    obtain ⟨hopener, hcloser⟩ := Bracket.mem_of_ne_angle fun hb => SlotKind.noConfusion (hangle.1 hb)
    have hends : Form.EndsEntry [')', ']'] := by decide
    have hmarks : Form.Marks p.mark w := hw.marks (Bool.or_true p.dropdown)
    have hmark : p.mark <+: [' ', 'v'] := by
      rcases hmarks with hmark | ⟨hmark, -⟩
      · exact hmark ▸ List.prefix_refl _
      · exact hmark ▸ List.nil_prefix
    rw [Placeholder.fill_append, slotForm]
    simp only [hne, if_false]
    exact Form.match?_optional hopener (Form.match?_word_marker hwords htakes hmark (hends _ hcloser).1
      (Form.match?_marker_closer hmarks (hends _ hcloser).2 (Form.match?_optional hcloser h)))

/-! ### Whole patterns -/

/-- Placeholders, with spelled text in front of each of them and behind the last one. -/
inductive Alternates : List Segment → Prop where
  | last (t : Text) : Alternates [.spelled t]
  | cons (t : Text) (p : Placeholder) {segments : List Segment} :
      Alternates segments → Alternates (.spelled t :: .slot p :: segments)

theorem alternates_segmentsFrom (t : Text) : ∀ (skip : Nat) (spelled : Text),
    Alternates (segmentsFrom skip spelled t) := by
  induction t with
  | nil => exact fun _ spelled => .last spelled.reverse
  | cons c t ih =>
    intro skip spelled
    unfold segmentsFrom
    split
    · exact ih _ _
    · split
      · exact .cons _ _ (ih _ _)
      · exact ih _ _

theorem alternates_segments (pattern : Text) : Alternates (segments pattern) :=
  alternates_segmentsFrom pattern 0 []

/-- Each placeholder of a pattern fits a slot and shows its mark. -/
abbrev IsSuited (slots : List Slot) (pattern : Text) : Prop :=
  ∀ p ∈ (segments pattern).filterMap Segment.placeholder?, ∃ slot ∈ slotNamed? slots p.name, p.Suits slot

variable {slots : List Slot} {pattern : Text} {entries : String → Text}

theorem mem_of_slotNamed? {name : Text} {slot : Slot} (h : slotNamed? slots name = some slot) :
    slot ∈ slots ∧ slot.name = String.ofList name := by
  have hname : slot.name.toList = name := by simpa using List.find?_some h
  exact ⟨List.mem_reverse.1 (List.mem_of_find?_eq_some h), by rw [← hname, String.ofList_toList]⟩

theorem slots_spelledForm (t : Text) : ∀ previous, Form.slots (spelledForm previous t) = [] := by
  induction t with
  | nil => exact fun _ => rfl
  | cons c t ih =>
    intro previous
    unfold spelledForm
    split
    · split
      · rfl
      · split
        · exact ih previous
        · exact ih none
    · split <;> exact ih (some c)

theorem slots_slotForm (slot : Slot) (dropdown : Bool) : Form.slots (slotForm slot dropdown) = [slot.name] := by
  unfold slotForm
  split
  · rfl
  · rfl
  · split <;> rfl

theorem exists_of_mapM_cons {α β ε : Type} {f : α → Except ε β} {a : α} {as : List α} {bs : List β}
    (h : (a :: as).mapM f = .ok bs) : ∃ b bs', f a = .ok b ∧ as.mapM f = .ok bs' ∧ bs = b :: bs' := by
  rw [List.mapM_cons] at h
  cases hb : f a with
  | error e => rw [hb] at h; cases h
  | ok b =>
    cases hbs : as.mapM f with
    | error e => rw [hb, hbs] at h; cases h
    | ok bs' =>
      rw [hb, hbs] at h
      cases h
      exact ⟨b, bs', rfl, rfl, rfl⟩

private theorem exists_of_segmentForm_slot {p : Placeholder} {slot : Slot} {f : Form}
    (h : segmentForm pattern slots (.slot p) = .ok f) (hslot : slotNamed? slots p.name = some slot) :
    f = slotForm slot p.dropdown := by
  rw [segmentForm, hslot] at h
  exact (Except.ok.inj h).symm

private theorem match?_segments {segs : List Segment} {forms : List Form} (hsegs : Alternates segs)
    (hforms : segs.mapM (segmentForm pattern slots) = .ok forms)
    (hholds : ∀ p ∈ segs.filterMap Segment.placeholder?,
      ∃ slot ∈ slotNamed? slots p.name, p.Fits slot ∧ p.Holds slot (entries slot.name)) :
    Form.match? forms.flatten (segs.flatMap (Segment.filled entries)) =
      some ((Form.slots forms.flatten).map fun name => (name, entries name)) := by
  induction hsegs generalizing forms with
  | last t =>
    obtain ⟨f, forms, hf, hnil, rfl⟩ := exists_of_mapM_cons hforms
    obtain rfl := Except.ok.inj hf
    rw [List.mapM_nil] at hnil
    obtain rfl := Except.ok.inj hnil
    have hslots : Form.slots (spelledForm none t ++ []) = [] := by rw [List.append_nil, slots_spelledForm]
    simp only [List.flatten_cons, List.flatten_nil, List.flatMap_cons, List.flatMap_nil, hslots]
    exact Form.match?_spelledForm none t (by simp) rfl
  | @cons t p segs hsegs ih =>
    obtain ⟨f, forms, hf, htail, rfl⟩ := exists_of_mapM_cons hforms
    obtain ⟨g, forms', hg, hforms', rfl⟩ := exists_of_mapM_cons htail
    obtain rfl := Except.ok.inj hf
    obtain ⟨slot, hslot, hp, hw⟩ := hholds p List.mem_cons_self
    obtain ⟨-, hname⟩ := mem_of_slotNamed? hslot
    obtain rfl := exists_of_segmentForm_slot hg hslot
    have hrest := ih hforms' fun q hq => hholds q (List.mem_cons_of_mem p hq)
    have hopener : ∀ c ∈ (p.fill (entries slot.name) ++ segs.flatMap (Segment.filled entries)).head?,
        isBlank c = false := by
      cases hb : p.bracket <;> simp [Placeholder.fill, hb, Bracket.opener] <;> decide
    have hslots : Form.slots (spelledForm none t ++ (slotForm slot p.dropdown ++ forms'.flatten)) =
        slot.name :: Form.slots forms'.flatten := by
      rw [Form.slots, List.filterMap_append, List.filterMap_append, ← Form.slots, slots_spelledForm, ← Form.slots,
        slots_slotForm, ← Form.slots]
      rfl
    simp only [List.flatten_cons, List.flatMap_cons, hslots, List.map_cons]
    rw [Segment.filled, Segment.filled, ← hname]
    exact Form.match?_spelledForm none t hopener (match?_slotForm hp hw hrest)

/-- The form of a pattern is put together from the forms of its segments. -/
theorem exists_of_form (h : Pattern.form slots pattern = .ok form) :
    ∃ forms, (segments pattern).mapM (segmentForm pattern slots) = .ok forms ∧ form = forms.flatten := by
  rw [Pattern.form] at h
  cases hforms : (segments pattern).mapM (segmentForm pattern slots) with
  | error fault => rw [hforms] at h; cases h
  | ok forms =>
    rw [hforms] at h
    have h : (if (Form.slots forms.flatten).Nodup then Except.ok forms.flatten else
      .error PatternFault.repeatedSlot) = .ok form := h
    split at h
    · exact ⟨forms, rfl, (Except.ok.inj h).symm⟩
    · cases h

/-- The form of a pattern reads the filled pattern, and gives back the texts that fill it. -/
theorem match?_filled (hform : Pattern.form slots pattern = .ok form)
    (hholds : ∀ p ∈ (segments pattern).filterMap Segment.placeholder?,
      ∃ slot ∈ slotNamed? slots p.name, p.Fits slot ∧ p.Holds slot (entries slot.name)) :
    form.match? (filled entries pattern) = some (form.slots.map fun name => (name, entries name)) := by
  obtain ⟨forms, hforms, rfl⟩ := exists_of_form hform
  exact match?_segments (alternates_segments pattern) hforms hholds

end Pattern

end BlockScript
