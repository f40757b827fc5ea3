import BlockScript.Proofs.Vocabulary.Filling

/-!
# Patterns from parts

A pattern may be any sequence of spelled texts and placeholders, as long as the spelled texts hold no brackets: it is
cut at its placeholders again (`Pattern.segments_flatMap_written`), and so it has a form (`Pattern.exists_form`).  The
operation reads the pattern with texts in the place of the names, and gives these texts back
(`Operation.match?_of_isComposed`).

The words of a choice are tried in order of falling length, so no word is taken for a shorter one that begins it.
-/

namespace BlockScript

/-! ### Choices -/

namespace Form

private theorem insertByLength_pairwise {w : Text} {ws : List Text}
    (h : ws.Pairwise fun x y => y.length ≤ x.length) :
    (insertByLength w ws).Pairwise fun x y => y.length ≤ x.length := by
  induction ws with
  | nil => exact List.pairwise_singleton _ w
  | cons x ws ih =>
    obtain ⟨hx, hws⟩ := List.pairwise_cons.1 h
    unfold insertByLength
    split
    · rename_i hle
      exact List.pairwise_cons.2 ⟨List.forall_mem_cons.2 ⟨hle, fun y hy => Nat.le_trans (hx y hy) hle⟩, h⟩
    · rename_i hlt
      refine List.pairwise_cons.2 ⟨fun y hy => ?_, ih hws⟩
      rcases List.mem_cons.1 ((insertByLength_perm w ws).mem_iff.1 hy) with rfl | hy
      · exact Nat.le_of_not_le hlt
      · exact hx y hy

theorem longestFirst_pairwise (ws : List Text) :
    (longestFirst ws).Pairwise fun x y => y.length ≤ x.length := by
  induction ws with
  | nil => exact List.Pairwise.nil
  | cons w ws ih => exact insertByLength_pairwise ih

/-- What begins an entry with its mark begins the entry, unless it ends in a mark itself. -/
private theorem prefix_of_prefix_mark {o w : Text} (ho : o.IsEntry) (hends : ¬o.EndsInMark)
    (h : o <+: w ++ [' ', 'v']) : o <+: w := by
  obtain ⟨rest, hrest⟩ := h
  rcases List.append_eq_append_iff.1 hrest with ⟨x, hx, -⟩ | ⟨x, rfl, hx⟩
  · exact ⟨x, hx.symm⟩
  · match x, hx with
    | [], _ => exact ⟨[], by simp⟩
    | [c], hx =>
      obtain rfl : ' ' = c := (List.cons.inj hx).1
      obtain ⟨front, d, hlast, hd⟩ := ho.last
      obtain rfl : ' ' = d := (List.cons.inj (List.append_inj' hlast rfl).2).1
      cases hd
    | [c, d], hx =>
      obtain ⟨rfl, hd⟩ := List.cons.inj hx
      obtain rfl : 'v' = d := (List.cons.inj hd).1
      exact absurd ⟨w, ' ', by decide, rfl⟩ hends
    | c :: d :: e :: x, hx => cases hx

/-- Entries that do not end in a mark are told apart. -/
theorem tellsApart_of_not_endsInMark {words : List Text} (h : ∀ w ∈ words, w.IsEntry ∧ ¬w.EndsInMark) :
    TellsApart words := by
  intro w hw
  refine ⟨(h w hw).1, ?_⟩
  obtain ⟨before, after, hsplit, hnot⟩ :=
    List.eq_append_cons_of_mem ((longestFirst_perm words).mem_iff.2 hw)
  refine List.find?_eq_some_iff_append.2 ⟨by simp, before, after, hsplit, fun o ho => ?_⟩
  have hmem : o ∈ words := (longestFirst_perm words).mem_iff.1 (hsplit ▸ List.mem_append_left _ ho)
  have hlength : w.length ≤ o.length := by
    have hpairwise := longestFirst_pairwise words
    rw [hsplit, List.pairwise_append] at hpairwise
    exact hpairwise.2.2 o ho w List.mem_cons_self
  rw [Bool.not_eq_true', Bool.eq_false_iff]
  intro hbegins
  have hbegins := prefix_of_prefix_mark (h o hmem).1 (h o hmem).2 (List.isPrefixOf_iff_prefix.1 hbegins)
  exact hnot (hbegins.eq_of_length_le hlength ▸ ho)

end Form

/-! ### Parts -/

/-- The name of a placeholder begins with a capital, and angle brackets hold no mark. -/
structure Placeholder.IsValid (p : Placeholder) : Prop where
  first : p.name.head?.any Char.isUpper = true
  name : ∀ c ∈ p.name, Pattern.isNameChar c = true
  plain : p.bracket = .angle → p.dropdown = false

instance : DecidablePred Placeholder.IsValid := fun p =>
  decidable_of_iff (p.name.head?.any Char.isUpper = true ∧ p.name.all Pattern.isNameChar = true ∧
      (p.bracket = .angle → p.dropdown = false))
    ⟨fun h => ⟨h.1, List.all_eq_true.1 h.2.1, h.2.2⟩, fun h => ⟨h.first, List.all_eq_true.2 h.name, h.plain⟩⟩

/-- A part of a pattern: a placeholder, or spelled text without brackets. -/
def Segment.IsPart : Segment → Prop
  | spelled t => ∀ c ∈ t, Bracket.ofOpener? c = none ∧ Bracket.ofCloser? c = none
  | slot p => p.IsValid

instance : DecidablePred Segment.IsPart
  | .spelled t => List.decidableBAll _ t
  | .slot p => inferInstanceAs (Decidable p.IsValid)

namespace Pattern

/-- Parts with all spelled texts in a row joined to one; `spelled` stands in front of them. -/
def joined (spelled : Text) : List Segment → List Segment
  | [] => [.spelled spelled]
  | .spelled t :: parts => joined (spelled ++ t) parts
  | .slot p :: parts => .spelled spelled :: .slot p :: joined [] parts

variable {p : Placeholder} {slots : List Slot}

/-- A name ends at its mark or its closer. -/
private theorem takeWhile_name (hp : p.IsValid) (rest : Text) :
    (p.name ++ (p.mark ++ p.bracket.closer :: rest)).takeWhile isNameChar = p.name ∧
      (p.name ++ (p.mark ++ p.bracket.closer :: rest)).dropWhile isNameChar = p.mark ++ p.bracket.closer :: rest := by
  have hstop : ∃ c tail, p.mark ++ p.bracket.closer :: rest = c :: tail ∧ isNameChar c = false := by
    unfold Placeholder.mark
    cases p.dropdown with
    | true => exact ⟨' ', _, rfl, by decide⟩
    | false => exact ⟨p.bracket.closer, rest, rfl, by cases p.bracket <;> decide⟩
  obtain ⟨c, tail, htail, hc⟩ := hstop
  rw [htail, List.takeWhile_append_of_pos hp.name, List.dropWhile_append_of_pos hp.name,
    List.takeWhile_cons_of_neg (by simp [hc]), List.dropWhile_cons_of_neg (by simp [hc]), List.append_nil]
  exact ⟨rfl, rfl⟩

/-- A placeholder is found where it is written. -/
theorem placeholder?_written (hp : p.IsValid) (rest : Text) : placeholder? (p.written ++ rest) = some p := by
  obtain ⟨htake, hdrop⟩ := takeWhile_name hp rest
  have hopener : Bracket.ofOpener? p.bracket.opener = some p.bracket := Bracket.ofOpener?_eq_some_iff.2 rfl
  rw [Placeholder.written, Placeholder.fill_append, placeholder?, hopener, Option.bind_some]
  simp only [placeholderIn?, htake, hdrop, hp.first, Bool.not_true, Bool.false_eq_true, if_false]
  obtain ⟨bracket, name, dropdown⟩ := p
  cases dropdown with
  | false => simp [Placeholder.mark]
  | true =>
    have hangle : bracket ≠ .angle := by
      intro hb
      cases hp.plain hb
    have hcloser : bracket.closer ≠ ' ' := by cases bracket <;> decide
    simp [Placeholder.mark, hangle, hcloser]

/-- What belongs to a placeholder is skipped. -/
private theorem segmentsFrom_length_append (u t : Text) : segmentsFrom u.length [] (u ++ t) = segmentsFrom 0 [] t := by
  induction u with
  | nil => rfl
  | cons c u ih => exact ih

private theorem segmentsFrom_spelled {t : Text} (ht : Segment.IsPart (.spelled t)) (spelled rest : Text) :
    segmentsFrom 0 spelled (t ++ rest) = segmentsFrom 0 (t.reverse ++ spelled) rest := by
  induction t generalizing spelled with
  | nil => rfl
  | cons c t ih =>
    obtain ⟨⟨hopener, -⟩, ht⟩ := List.forall_mem_cons.1 ht
    have hnone : placeholder? (c :: (t ++ rest)) = none := by rw [placeholder?, hopener, Option.bind_none]
    rw [List.cons_append, segmentsFrom, hnone, List.reverse_cons, List.append_assoc]
    exact ih ht (c :: spelled)

private theorem segmentsFrom_flatMap_written {parts : List Segment} (h : ∀ part ∈ parts, part.IsPart)
    (spelled : Text) : segmentsFrom 0 spelled (parts.flatMap Segment.written) = joined spelled.reverse parts := by
  induction parts generalizing spelled with
  | nil => rfl
  | cons part parts ih =>
    obtain ⟨hpart, hparts⟩ := List.forall_mem_cons.1 h
    rw [List.flatMap_cons]
    cases part with
    | spelled t =>
      rw [Segment.written, segmentsFrom_spelled hpart, ih hparts, List.reverse_append, List.reverse_reverse, joined]
    | slot p =>
      have hfound := placeholder?_written hpart (parts.flatMap Segment.written)
      rw [Segment.written]
      obtain ⟨c, tail, htext⟩ : ∃ c tail, p.written = c :: tail := ⟨_, _, rfl⟩
      rw [htext] at hfound ⊢
      rw [List.cons_append, segmentsFrom, ← List.cons_append, hfound]
      have hskip : p.written.length - 1 = tail.length := by rw [htext]; rfl
      simp only [hskip]
      rw [segmentsFrom_length_append, ih hparts, joined]
      rfl

/-- A pattern that is put together from parts is cut into these parts. -/
theorem segments_flatMap_written {parts : List Segment} (h : ∀ part ∈ parts, part.IsPart) :
    segments (parts.flatMap Segment.written) = joined [] parts :=
  segmentsFrom_flatMap_written h []

theorem filterMap_placeholder?_joined (spelled : Text) (parts : List Segment) :
    (joined spelled parts).filterMap Segment.placeholder? = parts.filterMap Segment.placeholder? := by
  induction parts generalizing spelled with
  | nil => rfl
  | cons part parts ih =>
    cases part with
    | spelled t => exact ih (spelled ++ t)
    | slot p => exact congrArg (p :: ·) (ih [])

theorem flatMap_filled_joined (entries : String → Text) (spelled : Text) (parts : List Segment) :
    (joined spelled parts).flatMap (Segment.filled entries) =
      spelled ++ parts.flatMap (Segment.filled entries) := by
  induction parts generalizing spelled with
  | nil => rfl
  | cons part parts ih =>
    cases part with
    | spelled t => rw [joined, ih, List.append_assoc]; rfl
    | slot p =>
      rw [joined, List.flatMap_cons, List.flatMap_cons, ih, List.nil_append, List.flatMap_cons]
      rfl

/-- The forms of parts take the texts of their placeholders, if these name slots. -/
private theorem exists_forms (pattern : Text) {segs : List Segment}
    (hdeclared : ∀ p ∈ segs.filterMap Segment.placeholder?, ∃ slot, slotNamed? slots p.name = some slot) :
    ∃ forms, segs.mapM (segmentForm pattern slots) = .ok forms ∧
      Form.slots forms.flatten = (segs.filterMap Segment.placeholder?).map fun p => String.ofList p.name := by
  induction segs with
  | nil => exact ⟨[], rfl, rfl⟩
  | cons seg segs ih =>
    cases seg with
    | spelled t =>
      obtain ⟨forms, hforms, hslots⟩ := ih hdeclared
      refine ⟨spelledForm none t :: forms, ?_, ?_⟩
      · rw [List.mapM_cons, hforms]
        rfl
      · rw [List.flatten_cons, Form.slots, List.filterMap_append, ← Form.slots, slots_spelledForm, ← Form.slots, hslots]
        rfl
    | slot p =>
      obtain ⟨slot, hslot⟩ := hdeclared p List.mem_cons_self
      obtain ⟨forms, hforms, hslots⟩ := ih fun q hq => hdeclared q (List.mem_cons_of_mem p hq)
      refine ⟨slotForm slot p.dropdown :: forms, ?_, ?_⟩
      · rw [List.mapM_cons, hforms, segmentForm, hslot]
        rfl
      · rw [List.flatten_cons, Form.slots, List.filterMap_append, ← Form.slots, slots_slotForm, ← Form.slots, hslots,
          (mem_of_slotNamed? hslot).2]
        rfl

/-- A pattern whose placeholders name different slots has a form. -/
theorem exists_form {pattern : Text}
    (hdeclared : ∀ p ∈ (segments pattern).filterMap Segment.placeholder?, ∃ slot, slotNamed? slots p.name = some slot)
    (hdistinct : (((segments pattern).filterMap Segment.placeholder?).map (·.name)).Nodup) :
    ∃ form, Pattern.form slots pattern = .ok form ∧
      form.slots = ((segments pattern).filterMap Segment.placeholder?).map fun p => String.ofList p.name := by
  obtain ⟨forms, hforms, hslots⟩ := exists_forms pattern hdeclared
  have hnodup : (Form.slots forms.flatten).Nodup := by
    rw [hslots]
    exact List.pairwise_map.2 ((List.pairwise_map.1 hdistinct).imp fun hne heq => hne (String.ofList_injective heq))
  refine ⟨forms.flatten, ?_, hslots⟩
  rw [Pattern.form, hforms]
  exact if_pos hnodup

end Pattern

/-! ### Operations -/

/-- A placeholder fits its slot: conditions stand in angle brackets, and nothing else does; the words of a choice are
entries that do not end in a mark. -/
structure Placeholder.Presents (p : Placeholder) (slot : Slot) : Prop where
  angle : p.bracket = .angle ↔ slot.kind = .boolean
  options : ∀ option ∈ slot.kind.options, Text.IsEntry option.toList ∧ ¬Text.EndsInMark option.toList

instance (p : Placeholder) : DecidablePred p.Presents := fun slot =>
  decidable_of_iff ((p.bracket = .angle ↔ slot.kind = .boolean) ∧
      ∀ option ∈ slot.kind.options, Text.IsEntry option.toList ∧ ¬Text.EndsInMark option.toList)
    ⟨fun h => ⟨h.1, h.2⟩, fun h => ⟨h.angle, h.options⟩⟩

theorem Placeholder.Presents.fits {p : Placeholder} {slot : Slot} (h : p.Presents slot) (hp : p.IsValid) :
    p.Fits slot := by
  refine ⟨h.angle, fun hd hkind => ?_, Form.tellsApart_of_not_endsInMark fun w hw => ?_⟩
  · rw [hp.plain (h.angle.2 hkind)] at hd
    cases hd
  · obtain ⟨option, hoption, rfl⟩ := List.mem_map.1 hw
    exact h.options option hoption

namespace Operation

/-- An operation whose pattern is put together from parts.  Its placeholders name different slots, and its aliases have
forms. -/
structure IsComposed (op : Operation) (parts : List Segment) : Prop where
  pattern : op.pattern.toList = parts.flatMap Segment.written
  isPart : ∀ part ∈ parts, part.IsPart
  distinct : ((parts.filterMap Segment.placeholder?).map (·.name)).Nodup
  presented : ∀ p ∈ parts.filterMap Segment.placeholder?, ∃ slot ∈ Pattern.slotNamed? op.slots p.name, p.Presents slot
  aliases : ∃ forms, formsOf op.slots op.aliases = .ok forms

variable {op : Operation} {parts : List Segment} {entries : String → Text}

/-- The first form of an operation is that of its pattern. -/
theorem exists_forms_eq_cons {form : Form} {others : List Form}
    (hform : Pattern.form op.slots op.pattern.toList = .ok form) (halias : formsOf op.slots op.aliases = .ok others) :
    op.forms = form :: others := by
  have hforms : formsOf op.slots (op.pattern :: op.aliases) = .ok (form :: others) := by
    rw [formsOf, List.mapM_cons, hform, ← formsOf, halias]
    rfl
  rw [forms, hforms]
  rfl

/-- An operation reads its pattern with texts in the place of the names, and gives these texts back. -/
theorem match?_of_isComposed (hop : op.IsComposed parts)
    (hholds : ∀ p ∈ parts.filterMap Segment.placeholder?, ∀ slot ∈ Pattern.slotNamed? op.slots p.name,
      p.Holds slot (entries slot.name)) :
    op.match? (parts.flatMap (Segment.filled entries)) =
      some ((parts.filterMap Segment.placeholder?).map fun p =>
        (String.ofList p.name, entries (String.ofList p.name))) := by
  have hsegments : Pattern.segments op.pattern.toList = Pattern.joined [] parts :=
    hop.pattern ▸ Pattern.segments_flatMap_written hop.isPart
  have hplaceholders : (Pattern.segments op.pattern.toList).filterMap Segment.placeholder? =
      parts.filterMap Segment.placeholder? := by
    rw [hsegments, Pattern.filterMap_placeholder?_joined]
  have hfilled : Pattern.filled entries op.pattern.toList = parts.flatMap (Segment.filled entries) := by
    rw [Pattern.filled, hsegments, Pattern.flatMap_filled_joined, List.nil_append]
  obtain ⟨form, hform, hslots⟩ : ∃ form, Pattern.form op.slots op.pattern.toList = .ok form ∧
      form.slots = (parts.filterMap Segment.placeholder?).map fun p => String.ofList p.name := by
    rw [← hplaceholders]
    refine Pattern.exists_form (fun p hp => ?_) (hplaceholders ▸ hop.distinct)
    obtain ⟨slot, hslot, -⟩ := hop.presented p (hplaceholders ▸ hp)
    exact ⟨slot, hslot⟩
  have hfits : ∀ p ∈ (Pattern.segments op.pattern.toList).filterMap Segment.placeholder?,
      ∃ slot ∈ Pattern.slotNamed? op.slots p.name, p.Fits slot ∧ p.Holds slot (entries slot.name) := by
    rw [hplaceholders]
    intro p hp
    obtain ⟨slot, hslot, hpresents⟩ := hop.presented p hp
    obtain ⟨part, hpart, hpart'⟩ := List.mem_filterMap.1 hp
    have hvalid : p.IsValid := by
      cases part with
      | spelled t => cases hpart'
      | slot q =>
        obtain rfl := Option.some.inj hpart'
        exact hop.isPart _ hpart
    exact ⟨slot, hslot, hpresents.fits hvalid, hholds p hp slot hslot⟩
  obtain ⟨others, hothers⟩ := hop.aliases
  rw [match?, exists_forms_eq_cons hform hothers, List.findSome?_cons, ← hfilled, Pattern.match?_filled hform hfits, hslots,
    List.map_map]
  rfl

/-- An operation with slots side by side, and a choice between words that begin each other. -/
def crowded : Operation :=
  .of "crowded" .data .reporter "?<SEEN>(SIZE)[NAME v] [LIST](WORD) of (KEY v)"
    [⟨"SEEN", .boolean⟩, ⟨"SIZE", .number⟩, ⟨"NAME", .field⟩, ⟨"LIST", .variableName⟩,
      ⟨"WORD", .choice ["a", "a b", "av", "a bv"]⟩, ⟨"KEY", .menu .key⟩]

/-- Texts that end in the letter of the mark, or in a mark. -/
theorem match?_of_isComposed_crowded : crowded.match? "?<v>(x v)[b v v] [ofv](a b) of (space v v)".toList =
    some [("SEEN", "v".toList), ("SIZE", "x v".toList), ("NAME", "b v".toList), ("LIST", "ofv".toList),
      ("WORD", "a b".toList), ("KEY", "space v".toList)] := by
  let parts : List Segment := [.spelled ['?'], .slot ⟨.angle, "SEEN".toList, false⟩,
    .slot ⟨.round, "SIZE".toList, false⟩, .slot ⟨.square, "NAME".toList, true⟩, .spelled [' '],
    .slot ⟨.square, "LIST".toList, false⟩, .slot ⟨.round, "WORD".toList, false⟩, .spelled " of ".toList,
    .slot ⟨.round, "KEY".toList, true⟩]
  let values : Bindings := [("SEEN", "v".toList), ("SIZE", "x v".toList), ("NAME", "b v".toList),
    ("LIST", "ofv".toList), ("WORD", "a b".toList), ("KEY", "space v".toList)]
  let entries (name : String) : Text := (values.lookup name).getD []
  have hop : crowded.IsComposed parts :=
    ⟨by decide +kernel, by decide +kernel, by decide +kernel, by decide +kernel, [], rfl⟩
  have hholds : ∀ p ∈ parts.filterMap Segment.placeholder?, ∀ slot ∈ Pattern.slotNamed? crowded.slots p.name,
      p.Holds slot (entries slot.name) := by
    decide +kernel
  have htext : parts.flatMap (Segment.filled entries) = "?<v>(x v)[b v v] [ofv](a b) of (space v v)".toList := by
    decide +kernel
  have hvalues : ((parts.filterMap Segment.placeholder?).map fun p =>
      (String.ofList p.name, entries (String.ofList p.name))) = values := by
    decide +kernel
  rw [← htext, match?_of_isComposed hop hholds, hvalues]

end Operation

end BlockScript
