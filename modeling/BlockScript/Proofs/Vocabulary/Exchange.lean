import BlockScript.Proofs.Vocabulary.Bytes
import BlockScript.Proofs.Vocabulary.Filling
import BlockScript.Vocabulary.Registry

/-!
# Round and square brackets

The vocabulary does not tell round brackets from square ones: a form that is met by a text is met in the same way by
the text with the two kinds exchanged (`Vocabulary.lookup_exchanged`).  Each piece of a form takes the same decision on
both texts, as long as it asks for the brackets of both kinds or of none.
-/

namespace BlockScript

/-- The bracket of the other kind, for round and square brackets. -/
def exchange (c : Char) : Char :=
  if c = '(' then '[' else if c = '[' then '(' else if c = ')' then ']' else if c = ']' then ')' else c

/-- The text with square brackets for round ones, and round ones for square ones. -/
def Text.exchanged (t : Text) : Text :=
  t.map exchange

/-- A text without round and square brackets. -/
def Text.IsFlat (t : Text) : Prop :=
  ∀ c ∈ t, exchange c = c

instance : DecidablePred Text.IsFlat := fun t =>
  List.decidableBAll _ t

/-- The bindings of the text with its brackets exchanged. -/
def Bindings.exchanged (values : Bindings) : Bindings :=
  values.map fun value => (value.1, value.2.exchanged)

theorem exchange_exchange (c : Char) : exchange (exchange c) = c := by
  unfold exchange
  split_ifs <;> simp_all

theorem isBlank_exchange (c : Char) : isBlank (exchange c) = isBlank c := by
  unfold exchange
  split_ifs with h h h h
  all_goals first | rfl | (subst h; decide)

/-- Only itself is exchanged for a character that is no round or square bracket. -/
theorem exchange_eq_iff {c d : Char} (hd : exchange d = d) : exchange c = d ↔ c = d := by
  constructor
  · intro h
    rw [← exchange_exchange c, h, hd]
  · rintro rfl
    exact hd

namespace Text

theorem exchanged_exchanged (t : Text) : t.exchanged.exchanged = t := by
  rw [exchanged, exchanged, List.map_map]
  exact (List.map_congr_left fun c _ => exchange_exchange c).trans (List.map_id t)

theorem IsFlat.exchanged_eq {t : Text} (h : t.IsFlat) : t.exchanged = t :=
  (List.map_congr_left h).trans (List.map_id t)

private theorem exchanged_append (t u : Text) : exchanged (t ++ u) = t.exchanged ++ u.exchanged :=
  List.map_append

private theorem dropWhile_exchanged (t : Text) :
    List.dropWhile isBlank t.exchanged = exchanged (t.dropWhile isBlank) := by
  rw [exchanged, List.dropWhile_map, exchanged]
  exact congrArg (List.map exchange) (congrArg (List.dropWhile · t) (funext isBlank_exchange))

theorem trim_exchanged (t : Text) : t.exchanged.trim = t.trim.exchanged := by
  have hreverse (t : Text) : t.exchanged.reverse = exchanged t.reverse := List.map_reverse.symm
  rw [trim, trimLeft, dropWhile_exchanged, trimRight, hreverse, dropWhile_exchanged, hreverse]
  rfl

/-- A word without round and square brackets stands in front of both texts or of none. -/
theorem after?_exchanged {w : Text} (hw : w.IsFlat) (t : Text) :
    after? w t.exchanged = (after? w t).map exchanged := by
  rw [Option.ext_iff]
  intro rest
  rw [after?_eq_some_iff, Option.map_eq_some_iff]
  constructor
  · intro h
    refine ⟨rest.exchanged, after?_eq_some_iff.2 ?_, rest.exchanged_exchanged⟩
    rw [← t.exchanged_exchanged, h, exchanged_append, hw.exchanged_eq]
  · rintro ⟨tail, htail, rfl⟩
    rw [after?_eq_some_iff.1 htail, exchanged_append, hw.exchanged_eq]

end Text

/-! ### Forms -/

/-- A continuation that takes the same decision for both kinds of brackets. -/
def TreatsAlike (next : Continuation) : Prop :=
  ∀ t, next t.exchanged = (next t).map Bindings.exchanged

private theorem findSome?_eq_map {α β γ : Type} {f : α → Option β} {g : α → Option γ} {k : β → γ} {l : List α}
    (h : ∀ a ∈ l, g a = (f a).map k) : l.findSome? g = (l.findSome? f).map k := by
  induction l with
  | nil => rfl
  | cons a l ih =>
    obtain ⟨ha, hl⟩ := List.forall_mem_cons.1 h
    rw [List.findSome?_cons, List.findSome?_cons, ha, ih hl]
    cases f a <;> rfl

/-- Characters that have both kinds of brackets or none. -/
def IsPaired (set : List Char) : Prop :=
  ∀ c ∈ set, exchange c ∈ set

instance : DecidablePred IsPaired := fun set =>
  List.decidableBAll _ set

namespace Piece

/-- A piece that asks for round and square brackets alike. -/
def IsFair : Piece → Prop
  | oneOf set => IsPaired set
  | optional set => IsPaired set
  | ahead set => IsPaired set
  | word _ options => ∀ w ∈ options, w.IsFlat
  | _ => True

variable {next : Continuation}

private theorem contains_exchange {set : List Char} (hset : IsPaired set) (c : Char) :
    set.contains (exchange c) = set.contains c := by
  rw [Bool.eq_iff_iff, List.contains_iff_mem, List.contains_iff_mem]
  refine ⟨fun h => ?_, hset c⟩
  rw [← exchange_exchange c]
  exact hset _ h

private theorem treatsAlike_runOneOf {set : List Char} (hset : IsPaired set) (h : TreatsAlike next) :
    TreatsAlike (runOneOf set next)
  | [] => rfl
  | c :: t => by
    show runOneOf set next (exchange c :: Text.exchanged t) = (runOneOf set next (c :: t)).map _
    rw [runOneOf, runOneOf, contains_exchange hset, h t]
    split_ifs <;> rfl

private theorem treatsAlike_runGap (h : TreatsAlike next) : ∀ required, TreatsAlike (runGap next required)
  | required, [] => by
    show runGap next required [] = (runGap next required []).map _
    have hnext : next [] = (next []).map Bindings.exchanged := h []
    unfold runGap
    split_ifs
    · rfl
    · exact hnext
  | required, c :: t => by
    have hnext : next (exchange c :: Text.exchanged t) = (next (c :: t)).map Bindings.exchanged := h (c :: t)
    show runGap next required (exchange c :: Text.exchanged t) = (runGap next required (c :: t)).map _
    unfold runGap
    rw [isBlank_exchange, treatsAlike_runGap h false t, hnext]
    split_ifs <;> simp [Option.map_or]

private theorem runShortest_exchanged (h : TreatsAlike next) (t : Text) : runShortest next t.exchanged =
    (runShortest next t).map fun found => (found.1.exchanged, found.2.exchanged) := by
  induction t with
  | nil => rfl
  | cons c t ih =>
    show runShortest next (exchange c :: Text.exchanged t) = _
    have hnewline : exchange c = '\n' ↔ c = '\n' := exchange_eq_iff (by decide)
    unfold runShortest
    simp only [hnewline, h t, ih]
    split_ifs
    · rfl
    · cases next t with
      | some values => rfl
      | none => cases runShortest next t <;> rfl

private theorem runLongest_exchanged (h : TreatsAlike next) (t : Text) : runLongest next t.exchanged =
    (runLongest next t).map fun found => (found.1.exchanged, found.2.exchanged) := by
  induction t with
  | nil => rfl
  | cons c t ih =>
    show runLongest next (exchange c :: Text.exchanged t) = _
    have hnewline : exchange c = '\n' ↔ c = '\n' := exchange_eq_iff (by decide)
    unfold runLongest
    simp only [hnewline, h t, ih]
    split_ifs
    · rfl
    · cases runLongest next t with
      | some found => rfl
      | none => cases next t <;> rfl

private theorem bind_exchanged (slot : String) (found : Text × Bindings) :
    bind slot (found.1.exchanged, found.2.exchanged) = (bind slot found).exchanged := by
  rw [bind, Text.trim_exchanged]
  rfl

/-- A fair piece takes the same decision in front of both rests. -/
theorem treatsAlike_run {p : Piece} (hp : p.IsFair) (h : TreatsAlike next) : TreatsAlike (p.run next) := by
  intro t
  -- what follows the piece is any continuation that treats both alike, so each piece is settled by itself
  cases p with
  | oneOf set => exact treatsAlike_runOneOf hp h t
  | optional set =>
    show (runOneOf set next t.exchanged).or (next t.exchanged) = ((runOneOf set next t).or (next t)).map _
    rw [treatsAlike_runOneOf hp h t, h t, Option.map_or]
  | gap required => exact treatsAlike_runGap h required t
  | marker =>
    have hv : TreatsAlike (runOneOf ['v'] next) := treatsAlike_runOneOf (by decide) h
    show (runGap (runOneOf ['v'] next) true t.exchanged).or (next t.exchanged) =
      ((runGap (runOneOf ['v'] next) true t).or (next t)).map _
    rw [treatsAlike_runGap hv true t, h t, Option.map_or]
  | ahead set =>
    have hhead : (t.exchanged.head?.any set.contains) = t.head?.any set.contains := by
      rw [Text.exchanged, List.head?_map, Option.any_map]
      exact congrArg (t.head?.any ·) (funext (contains_exchange hp))
    show (if t.exchanged.head?.any set.contains then next t.exchanged else none) =
      (if t.head?.any set.contains then next t else none).map _
    rw [hhead, h t]
    split_ifs <;> rfl
  | shortest slot =>
    show (runShortest next t.exchanged).map (bind slot) = ((runShortest next t).map (bind slot)).map _
    rw [runShortest_exchanged h, Option.map_map, Option.map_map]
    exact congrArg (Option.map · _) (funext fun found => bind_exchanged slot found)
  | longest slot =>
    show (runLongest next t.exchanged).map (bind slot) = ((runLongest next t).map (bind slot)).map _
    rw [runLongest_exchanged h, Option.map_map, Option.map_map]
    exact congrArg (Option.map · _) (funext fun found => bind_exchanged slot found)
  | word slot options =>
    refine findSome?_eq_map fun w hw => ?_
    have hw : w.IsFlat := hp w hw
    rw [Text.after?_exchanged hw]
    cases Text.after? w t with
    | none => rfl
    | some rest =>
      show (next rest.exchanged).map _ = ((next rest).map fun found => bind slot (w, found)).map _
      rw [h rest, Option.map_map, Option.map_map]
      refine congrArg (Option.map · _) (funext fun values => ?_)
      rw [Function.comp_apply, Function.comp_apply, ← bind_exchanged, hw.exchanged_eq]

end Piece

namespace Form

/-- A form of fair pieces reads both texts in the same way. -/
theorem match?_exchanged {form : Form} (hform : ∀ p ∈ form, p.IsFair) : TreatsAlike form.match? := by
  induction form with
  | nil =>
    intro t
    cases t <;> rfl
  | cons p form ih =>
    obtain ⟨hp, hform⟩ := List.forall_mem_cons.1 hform
    exact Piece.treatsAlike_run hp (ih hform)

end Form

/-! ### Patterns -/

namespace Pattern

theorem isFair_spelledForm {t : Text} (ht : t.IsFlat) : ∀ previous, ∀ p ∈ spelledForm previous t, p.IsFair := by
  induction t with
  | nil => exact fun _ p hp => nomatch hp
  | cons c t ih =>
    intro previous
    obtain ⟨hc, ht⟩ := List.forall_mem_cons.1 ht
    have hset : IsPaired [c] := by simpa [IsPaired] using hc
    unfold spelledForm
    split
    · split
      · exact List.forall_mem_singleton.2 trivial
      · split
        · exact ih ht previous
        · exact List.forall_mem_cons.2 ⟨trivial, ih ht none⟩
    · split
      · exact List.forall_mem_cons.2 ⟨hset, ih ht (some c)⟩
      · exact List.forall_mem_cons.2 ⟨hset, ih ht (some c)⟩

/-- A value may stand in brackets of both kinds, and a condition in neither of them. -/
theorem isFair_slotForm {slot : Slot} (hslot : ∀ w ∈ slot.kind.options, Text.IsFlat w.toList) (dropdown : Bool) :
    ∀ p ∈ slotForm slot dropdown, p.IsFair := by
  have hopeners : IsPaired ['(', '['] := by decide
  have hclosers : IsPaired [')', ']'] := by decide
  have hangles : IsPaired ['<'] ∧ IsPaired ['>'] := by decide
  unfold slotForm
  split
  · rename_i options hkind
    have hwords : ∀ w ∈ if options = [] then [[]] else Form.longestFirst (options.map String.toList), Text.IsFlat w := by
      split
      · exact List.forall_mem_singleton.2 fun c hc => nomatch hc
      · intro w hw
        obtain ⟨word, hword, rfl⟩ := List.mem_map.1 ((Form.longestFirst_perm _).mem_iff.1 hw)
        exact hslot word (by rwa [hkind])
    simpa [Piece.IsFair] using ⟨hopeners, hwords, hclosers⟩
  · simpa [Piece.IsFair] using hangles
  · split
    · simpa [Piece.IsFair] using ⟨hopeners, hclosers⟩
    · simpa [Piece.IsFair] using ⟨hopeners, hclosers⟩

end Pattern

/-- A part of a pattern whose only round and square brackets are those of a placeholder. -/
def Segment.IsFlat : Segment → Prop
  | spelled t => t.IsFlat
  | slot _ => True

instance : DecidablePred Segment.IsFlat := fun segment =>
  match segment with
  | .spelled t => inferInstanceAs (Decidable t.IsFlat)
  | .slot _ => inferInstanceAs (Decidable True)

/-- The words of a slot have no round and square brackets. -/
abbrev Slot.IsFlat (slot : Slot) : Prop :=
  ∀ w ∈ slot.kind.options, Text.IsFlat w.toList

/-- The round and square brackets in the patterns of an operation are those of its placeholders. -/
structure Operation.IsFlat (op : Operation) : Prop where
  slots : ∀ slot ∈ op.slots, slot.IsFlat
  patterns : ∀ pattern ∈ op.pattern :: op.aliases, ∀ segment ∈ Pattern.segments pattern.toList, segment.IsFlat

private theorem exists_mem_of_mapM {α β ε : Type} {f : α → Except ε β} {as : List α} {bs : List β}
    (h : as.mapM f = .ok bs) : ∀ b ∈ bs, ∃ a ∈ as, f a = .ok b := by
  induction as generalizing bs with
  | nil =>
    rw [List.mapM_nil] at h
    obtain rfl := Except.ok.inj h
    exact fun b hb => nomatch hb
  | cons a as ih =>
    obtain ⟨b, bs, hb, hbs, rfl⟩ := Pattern.exists_of_mapM_cons h
    refine List.forall_mem_cons.2 ⟨⟨a, List.mem_cons_self, hb⟩, fun b' hb' => ?_⟩
    obtain ⟨a', ha', hf⟩ := ih hbs b' hb'
    exact ⟨a', List.mem_cons_of_mem _ ha', hf⟩

namespace Pattern

variable {slots : List Slot} {pattern : Text} {form : Form}

private theorem isFair_segmentForm {segment : Segment} (hslots : ∀ slot ∈ slots, slot.IsFlat)
    (hsegment : segment.IsFlat) (h : segmentForm pattern slots segment = .ok form) : ∀ p ∈ form, p.IsFair := by
  unfold segmentForm at h
  split at h
  · obtain rfl := Except.ok.inj h
    exact isFair_spelledForm hsegment none
  · split at h
    · rename_i slot hslot
      obtain rfl := Except.ok.inj h
      exact isFair_slotForm (hslots slot (mem_of_slotNamed? hslot).1) _
    · cases h

private theorem isFair_form (hslots : ∀ slot ∈ slots, slot.IsFlat)
    (hpattern : ∀ segment ∈ segments pattern, segment.IsFlat) (h : Pattern.form slots pattern = .ok form) :
    ∀ p ∈ form, p.IsFair := by
  obtain ⟨forms, hforms, rfl⟩ := exists_of_form h
  intro p hp
  obtain ⟨f, hf, hp⟩ := List.mem_flatten.1 hp
  obtain ⟨segment, hsegment, hform⟩ := exists_mem_of_mapM hforms f hf
  exact isFair_segmentForm hslots (hpattern segment hsegment) hform p hp

end Pattern

/-! ### Operations -/

/-- An operation whose brackets are those of its placeholders reads both texts in the same way. -/
theorem Operation.match?_exchanged {op : Operation} (hop : op.IsFlat) (t : Text) :
    op.match? t.exchanged = (op.match? t).map Bindings.exchanged := by
  refine findSome?_eq_map fun form hform => Form.match?_exchanged ?_ t
  unfold forms at hform
  cases hforms : formsOf op.slots (op.pattern :: op.aliases) with
  | error fault =>
    rw [hforms] at hform
    cases hform
  | ok forms =>
    rw [hforms] at hform
    obtain ⟨pattern, hpattern, hform⟩ := exists_mem_of_mapM hforms form hform
    exact Pattern.isFair_form hop.slots (hop.patterns pattern hpattern) hform

namespace Vocabulary

private theorem isFlat_of_mem : ∀ op ∈ all, op.IsFlat := by
  have hiff (op : Operation) : op.IsFlat ↔
      (∀ slot ∈ op.slots, ∀ w ∈ slot.kind.options, Text.IsFlat (Text.ofString w)) ∧
      ∀ pattern ∈ op.pattern :: op.aliases, ∀ segment ∈ Pattern.segments (Text.ofString pattern), segment.IsFlat := by
    simp only [Text.ofString_eq_toList]
    exact ⟨fun h => ⟨h.slots, h.patterns⟩, fun h => ⟨h.1, h.2⟩⟩
  -- a finite check of the vocabulary
  simp only [hiff]
  decide +kernel

/-- A text reads as the same operation with its round and square brackets exchanged, and each slot takes the text that
it took, with the brackets exchanged. -/
theorem lookup_exchanged (shapes : List Shape) (t : Text) :
    lookup shapes t.exchanged = (lookup shapes t).map fun found => (found.1, found.2.exchanged) := by
  have hall : ∀ op ∈ if shapes = [] then all else ofShapes shapes, op ∈ all := by
    split
    · exact fun _ hop => hop
    · exact fun _ hop => List.mem_of_mem_filter hop
  refine findSome?_eq_map fun op hop => ?_
  rw [Operation.match?_exchanged (isFlat_of_mem op (hall op hop)), Option.map_map, Option.map_map]
  rfl

end Vocabulary

end BlockScript
