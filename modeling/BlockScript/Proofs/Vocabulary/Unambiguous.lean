import BlockScript.Proofs.Line.Kind
import BlockScript.Proofs.Vocabulary.Bytes
import BlockScript.Proofs.Vocabulary.Filling
import BlockScript.Vocabulary.Registry

/-!
# The vocabulary is unambiguous

A filled pattern is read as the operation that it belongs to: no operation of the same shape that is tried before
reads it.  Both sides of this are finite facts about the vocabulary.  The words of an operation and its choices make
templates with holes for the other slots, and an earlier form does not reach the end of them (`Operation.Yields`).

There is one exception among all pairs.  `[PROPERTY v] of (OBJECT v)` is read as a mathematical function if its
property is the name of one; for other properties this is refuted by hand.
-/

namespace BlockScript

/-! ### The templates of an operation -/

theorem Template.fits_given_iff {t u : Text} : Template.Fits (t.map .given) u ↔ u = t := by
  induction t generalizing u with
  | nil => rfl
  | cons c t ih =>
    constructor
    · rintro ⟨w, rest, rfl, hw, hrest⟩
      obtain rfl : w = [c] := hw
      rw [ih.1 hrest]
      rfl
    · rintro rfl
      exact Template.fits_given (c :: t)

theorem Template.fits_append_iff {s s' : Template} {t : Text} :
    (s ++ s').Fits t ↔ ∃ u u', t = u ++ u' ∧ s.Fits u ∧ s'.Fits u' := by
  constructor
  · intro h
    induction s generalizing t with
    | nil => exact ⟨[], t, rfl, rfl, h⟩
    | cons a s ih =>
      obtain ⟨u, rest, rfl, hu, hrest⟩ := h
      obtain ⟨v, v', rfl, hv, hv'⟩ := ih hrest
      exact ⟨u ++ v, v', (List.append_assoc _ _ _).symm, ⟨u, v, rfl, hu, hv⟩, hv'⟩
  · rintro ⟨u, u', rfl, hu, hu'⟩
    exact hu.append hu'

/-- A text has no line breaks but those that its template gives. -/
theorem Template.not_mem_of_fits {s : Template} {t : Text} (h : s.Fits t)
    (hs : .given '\n' ∉ s ∧ .anything ∉ s) : '\n' ∉ t := by
  induction s generalizing t with
  | nil =>
    obtain rfl : t = [] := h
    exact List.not_mem_nil
  | cons a s ih =>
    obtain ⟨u, rest, rfl, hu, hrest⟩ := h
    simp only [List.mem_cons, not_or] at hs
    have hfirst : '\n' ∉ u := by
      intro hmem
      cases a with
      | given c =>
        obtain rfl : u = [c] := hu
        exact hs.1.1 (by rw [List.mem_singleton.1 hmem])
      | solid =>
        obtain ⟨c, rfl, hinner, -⟩ := hu
        rw [← List.mem_singleton.1 hmem] at hinner
        cases hinner
      | hole => exact absurd (hu _ hmem) (by decide)
      | anything => exact hs.2.1 rfl
    rw [List.mem_append, not_or]
    exact ⟨hfirst, ih hrest ⟨hs.1.2, hs.2.2⟩⟩

/-- The template of all entries. -/
def Template.entry : Template :=
  [.hole, .solid]

/-- What is left of an entry still ends in a character that is no blank. -/
theorem Text.IsEntry.fits_suffix {t u : Text} (h : t.IsEntry) (hu : u <:+ t) (hne : u ≠ []) :
    Template.entry.Fits u := by
  obtain ⟨front, c, rfl, hc⟩ := h.last
  obtain rfl | ⟨u, rfl, hsuffix⟩ := List.suffix_concat_iff.1 hu
  · exact absurd rfl hne
  · have hinner : ∀ d ∈ u, isInner d = true := fun d hd => h.inner d (List.mem_append_left _ (hsuffix.mem hd))
    exact ⟨u, [c], rfl, hinner, [c], [], rfl, ⟨c, rfl, h.inner c (by simp), hc⟩, rfl⟩

theorem Text.IsEntry.fits {t : Text} (h : t.IsEntry) : Template.entry.Fits t :=
  h.fits_suffix (List.suffix_refl t) h.ne_nil

/-- The templates of the texts that a slot takes. -/
def Slot.templates (slot : Slot) : List Template :=
  match slot.kind with
  | .choice options => options.map (·.toList.map .given)
  | _ => [.entry]

theorem Slot.exists_templates {slot : Slot} {t : Text} (h : slot.Takes t) : ∃ s ∈ slot.templates, s.Fits t := by
  obtain ⟨name, kind⟩ := slot
  have hentry (h : t.IsEntry) : ∃ s ∈ [Template.entry], s.Fits t := ⟨.entry, List.mem_singleton.2 rfl, h.fits⟩
  cases kind with
  | choice options =>
    obtain ⟨option, hoption, rfl⟩ := List.mem_map.1 h
    exact ⟨_, List.mem_map.2 ⟨option, hoption, rfl⟩, Template.fits_given _⟩
  | literal kind => exact hentry h
  | menu m => exact hentry h
  | boolean => exact hentry h
  | raw => exact hentry h
  | variableName => exact hentry h
  | field => exact hentry h

/-- The template of a placeholder that holds a text of some template. -/
def Placeholder.template (p : Placeholder) (inside : Template) : Template :=
  [.given p.bracket.opener] ++ inside ++ (if p.dropdown then [' ', 'v'] else []).map .given ++
    [.given p.bracket.closer]

theorem Placeholder.fits_template {p : Placeholder} {inside : Template} {t : Text} (h : inside.Fits t) :
    (p.template inside).Fits (p.fill t) :=
  (((Template.fits_given [p.bracket.opener]).append h).append (Template.fits_given _)).append
    (Template.fits_given [p.bracket.closer])

namespace Pattern

/-- The templates of one part of a pattern. -/
def templatesOf (slots : List Slot) : Segment → List Template
  | .spelled t => [t.map .given]
  | .slot p => (slotNamed? slots p.name).toList.flatMap fun slot => slot.templates.map p.template

/-- The templates of some parts of a pattern. -/
def templatesOfAll (slots : List Slot) : List Segment → List Template
  | [] => [[]]
  | segment :: segments =>
    (templatesOf slots segment).flatMap fun s => (templatesOfAll slots segments).map (s ++ ·)

variable {slots : List Slot} {entries : String → Text}

private theorem exists_templatesOfAll (htakes : ∀ slot ∈ slots, slot.Takes (entries slot.name))
    {segments : List Segment}
    (hsuited : ∀ p ∈ segments.filterMap Segment.placeholder?, ∃ slot ∈ slotNamed? slots p.name, p.Suits slot) :
    ∃ s ∈ templatesOfAll slots segments, s.Fits (segments.flatMap (Segment.filled entries)) := by
  induction segments with
  | nil => exact ⟨[], List.mem_singleton.2 rfl, rfl⟩
  | cons segment segments ih =>
    obtain ⟨s', hs', hrest⟩ := ih fun p hp => hsuited p ((List.Sublist.refl _).filterMap _ |>.subset (by
      simp only [List.filterMap_cons]; split <;> simp [hp]))
    have hfirst : ∃ s ∈ templatesOf slots segment, s.Fits (segment.filled entries) := by
      cases segment with
      | spelled t => exact ⟨_, List.mem_singleton.2 rfl, Template.fits_given t⟩
      | slot p =>
        obtain ⟨slot, hslot, -⟩ := hsuited p List.mem_cons_self
        obtain ⟨hmem, hname⟩ := mem_of_slotNamed? hslot
        obtain ⟨s, hs, hfits⟩ := Slot.exists_templates (htakes slot hmem)
        refine ⟨p.template s, List.mem_flatMap.2 ⟨slot, by simpa using hslot, List.mem_map.2 ⟨s, hs, rfl⟩⟩, ?_⟩
        rw [Segment.filled, ← hname]
        exact Placeholder.fits_template hfits
    obtain ⟨s, hs, hfits⟩ := hfirst
    exact ⟨s ++ s', List.mem_flatMap.2 ⟨s, hs, List.mem_map.2 ⟨s', hs', rfl⟩⟩, hfits.append hrest⟩

end Pattern

namespace Operation

/-- The templates of the texts that fill the pattern of an operation. -/
def templates (op : Operation) : List Template :=
  Pattern.templatesOfAll op.slots (Pattern.segments op.pattern.toList)

theorem templates_eq_ofString (op : Operation) :
    op.templates = Pattern.templatesOfAll op.slots (Pattern.segments (Text.ofString op.pattern)) := by
  rw [Text.ofString_eq_toList, templates]

/-- The pattern of an operation with texts in its slots. -/
def filled (op : Operation) (entries : String → Text) : Text :=
  Pattern.filled entries op.pattern.toList

/-- An operation whose pattern has a form, with its slots in order. -/
structure IsRegular (op : Operation) : Prop where
  suited : Pattern.IsSuited op.slots op.pattern.toList
  ordered : op.forms.head?.map Form.slots = some (op.slots.map (·.name))

instance (op : Operation) : Decidable op.IsRegular :=
  decidable_of_iff (Pattern.IsSuited op.slots op.pattern.toList ∧
      op.forms.head?.map Form.slots = some (op.slots.map (·.name)))
    ⟨fun h => ⟨h.1, h.2⟩, fun h => ⟨h.suited, h.ordered⟩⟩

/-- No form of an operation reads what fills the pattern of a later operation, at least if both have one shape. -/
abbrev Yields (earlier later : Operation) : Prop :=
  earlier.shape ≠ later.shape ∨ ∀ s ∈ later.templates, ∀ form ∈ earlier.forms, form.reaches s = false

end Operation

namespace Operation

variable {op earlier : Operation} {entries : String → Text}

/-- Some template fits the filled pattern. -/
theorem exists_templates (hop : op.IsRegular) (htakes : ∀ slot ∈ op.slots, slot.Takes (entries slot.name)) :
    ∃ s ∈ op.templates, s.Fits (op.filled entries) :=
  Pattern.exists_templatesOfAll htakes hop.suited

/-- An operation reads its filled pattern. -/
theorem match?_filled (hop : op.IsRegular) (htakes : ∀ slot ∈ op.slots, slot.Takes (entries slot.name)) :
    op.match? (op.filled entries) = some (op.slots.map fun slot => (slot.name, entries slot.name)) := by
  obtain ⟨form, hhead, hslots⟩ := Option.map_eq_some_iff.1 hop.ordered
  obtain ⟨others, hforms⟩ : ∃ others, op.forms = form :: others := List.head?_eq_some_iff.1 hhead
  have hform : Pattern.form op.slots op.pattern.toList = .ok form := by
    unfold forms formsOf at hforms
    cases h : (op.pattern :: op.aliases).mapM fun pattern => Pattern.form op.slots pattern.toList with
    | error fault => rw [h] at hforms; cases hforms
    | ok found =>
      rw [h] at hforms
      obtain ⟨first, _, hfirst, -, rfl⟩ := Pattern.exists_of_mapM_cons h
      obtain rfl := (List.cons.inj hforms).1
      exact hfirst
  have hholds : ∀ p ∈ (Pattern.segments op.pattern.toList).filterMap Segment.placeholder?,
      ∃ slot ∈ Pattern.slotNamed? op.slots p.name, p.Fits slot ∧ p.Holds slot (entries slot.name) := by
    intro p hp
    obtain ⟨slot, hslot, hsuits⟩ := hop.suited p hp
    exact ⟨slot, hslot, hsuits.1, hsuits.holds (htakes slot (Pattern.mem_of_slotNamed? hslot).1)⟩
  rw [match?, hforms, List.findSome?_cons, filled, Pattern.match?_filled hform hholds, hslots, List.map_map]
  rfl

/-- An operation that yields does not read the filled pattern. -/
theorem match?_eq_none_of_yields (hyields : earlier.Yields op) (hshape : earlier.shape = op.shape)
    (hop : op.IsRegular) (htakes : ∀ slot ∈ op.slots, slot.Takes (entries slot.name)) :
    earlier.match? (op.filled entries) = none := by
  obtain ⟨s, hs, hfits⟩ := exists_templates hop htakes
  have hout := hyields.resolve_left (not_not_intro hshape) s hs
  rw [match?, List.findSome?_eq_none_iff]
  intro form hform
  cases h : form.match? (op.filled entries) with
  | none => rfl
  | some values =>
    have hreaches := Form.reaches_of_match? h hfits
    rw [hout form hform] at hreaches
    cases hreaches

end Operation

namespace Vocabulary

/-! ### Kinds of lines -/

/-- A template of lines that begin with `when` and a blank. -/
private abbrev IsTriggerTemplate (s : Template) : Prop :=
  "when ".toList.map .given <+: s ∧ .given '\n' ∉ s ∧ .anything ∉ s

/-- A template of lines with which no word of another kind begins. -/
private abbrev IsStatementTemplate (s : Template) : Prop :=
  (∀ word ∈ Line.openingWords, s.spell word = []) ∧ s.step (.among ['e', 'E']) = []

/-! ### Properties of objects -/

/-- What stands in the form of a mathematical function behind the name of the function. -/
private def functionTail : Form :=
  [.marker, .optional [')', ']'], .gap false] ++ Form.exactly "of".toList ++
    [.gap false, .oneOf ['(', '['], .shortest "NUM", .oneOf [')', ']']]

private theorem forms_mathFunction : Operation.mathFunction.forms =
    [.optional ['(', '['] :: .word "OPERATOR" (Form.longestFirst (mathFunctions.map String.toList)) ::
      functionTail] := by
  decide

/-- The template of what stands behind a property. -/
private def objectTemplate : Template :=
  " v] of (".toList.map .given ++ Template.entry ++ " v)".toList.map .given

private theorem reaches_functionTail : functionTail.reaches (Template.entry ++ objectTemplate) = false := by
  decide

/-- No name of a mathematical function goes on as a property does. -/
private theorem functionName_ends : ∀ name ∈ mathFunctions.map String.toList,
    name.head?.any (· != '[') = true ∧ name.getLast? ≠ some ' ' ∧ ¬[' ', 'v'] <:+: name := by
  decide +kernel

/-- A property that is not the name of a mathematical function is not read as one. -/
private theorem match?_mathFunction_eq_none {property rest : Text} (hproperty : property.IsEntry)
    (hrest : objectTemplate.Fits rest) (hout : property ∉ mathFunctions.map String.toList) :
    Operation.mathFunction.match? ('[' :: (property ++ rest)) = none := by
  rw [Operation.match?, forms_mathFunction, List.findSome?_eq_none_iff]
  intro form hform
  obtain rfl := List.mem_singleton.1 hform
  rw [Option.eq_none_iff_forall_ne_some]
  intro values hvalues
  obtain ⟨u, tail, _, htext, hu, hword, -⟩ := Piece.exists_of_run hvalues
  obtain ⟨name, tail, _, rfl, hname, htail, -⟩ := Piece.exists_of_run hword
  have hname : name ∈ mathFunctions.map String.toList := (Form.longestFirst_perm _).mem_iff.1 hname
  obtain ⟨hfirst, hlast, hmark⟩ := functionName_ends name hname
  rcases hu with rfl | ⟨c, -, rfl⟩
  · -- the bracket is not left to the name
    obtain ⟨d, name, rfl⟩ : ∃ d tail, name = d :: tail :=
      List.exists_cons_of_ne_nil (by rintro rfl; cases hfirst)
    obtain rfl : '[' = d := (List.cons.inj htext).1
    cases hfirst
  · have htext : property ++ rest = name ++ tail := (List.cons.inj htext).2
    rcases List.append_eq_append_iff.1 htext with ⟨x, rfl, hx⟩ | ⟨x, rfl, rfl⟩
    · -- the name would go on with the mark
      obtain ⟨mark, rest, rfl, hmark', -⟩ := Template.fits_append_iff.1 hrest
      obtain ⟨mark, _, rfl, hmark', -⟩ := Template.fits_append_iff.1 hmark'
      have hstart : " v] of (".toList = ' ' :: 'v' :: "] of (".toList := by simp
      rw [Template.fits_given_iff.1 hmark', hstart] at hx
      match x, hx with
      | [], _ => exact hout (by simpa using hname)
      | [c], hx =>
        obtain rfl : ' ' = c := (List.cons.inj hx).1
        exact hlast (by simp)
      | c :: d :: x, hx =>
        obtain ⟨rfl, hbehind⟩ := List.cons.inj hx
        obtain rfl : 'v' = d := (List.cons.inj hbehind).1
        exact hmark ⟨property, x, by simp⟩
    · have hne : x ≠ [] := by
        rintro rfl
        exact hout (by simpa using hname)
      have hfits := (hproperty.fits_suffix (List.suffix_append name x) hne).append hrest
      have hreaches := Form.reaches_of_match? htail hfits
      rw [reaches_functionTail] at hreaches
      cases hreaches

private theorem segments_ofObject : Pattern.segments "[PROPERTY v] of (OBJECT v)".toList =
    [.spelled [], .slot ⟨.square, "PROPERTY".toList, true⟩, .spelled " of ".toList,
      .slot ⟨.round, "OBJECT".toList, true⟩, .spelled []] := by
  decide

private theorem filled_ofObject (entries : String → Text) :
    Pattern.filled entries "[PROPERTY v] of (OBJECT v)".toList =
      '[' :: (entries "PROPERTY" ++ (" v] of (".toList ++ entries "OBJECT" ++ " v)".toList)) := by
  have hstart : " v] of (".toList = [' ', 'v', ']'] ++ " of ".toList ++ ['('] := by simp
  have hend : " v)".toList = [' ', 'v', ')'] := by simp
  rw [Pattern.filled, segments_ofObject, hstart, hend]
  simp [Segment.filled, Placeholder.fill, Bracket.opener, Bracket.closer]

/-! ### The search -/

/-- What the templates of a pattern say about the kind of its lines. -/
private def HasLineKind (shape : Shape) (templates : List Template) (pattern : Text) : Prop :=
  (shape = .command → (∀ s ∈ templates, IsStatementTemplate s) ∨
    (Pattern.segments pattern = [.spelled pattern] ∧ Line.kindOf pattern = (.statement, none))) ∧
  (shape = .hat → ∀ s ∈ templates, IsTriggerTemplate s)

private instance {shape : Shape} {templates : List Template} {pattern : Text} :
    Decidable (HasLineKind shape templates pattern) :=
  inferInstanceAs (Decidable (_ ∧ _))

/-- The one operation that an earlier one may read is a property of an object. -/
private def IsPropertyOfObject (op : Operation) : Prop :=
  op.opcode = "sensing_of" → op.pattern = "[PROPERTY v] of (OBJECT v)" ∧
    op.slots = [⟨"PROPERTY", .field⟩, ⟨"OBJECT", .menu .ofObject⟩]

private instance : DecidablePred IsPropertyOfObject := fun _ =>
  inferInstanceAs (Decidable (_ → _))

theorem isRegular_of_mem : ∀ op ∈ all, op.IsRegular := by
  have hiff (op : Operation) : op.IsRegular ↔ Pattern.IsSuited op.slots (Text.ofString op.pattern) ∧
      op.forms.head?.map Form.slots = some (op.slots.map (·.name)) := by
    rw [Text.ofString_eq_toList]
    exact ⟨fun h => ⟨h.suited, h.ordered⟩, fun h => ⟨h.1, h.2⟩⟩
  simp only [hiff, Operation.forms_eq_ofString]
  decide +kernel

private theorem hasLineKind_of_mem : ∀ op ∈ all, HasLineKind op.shape op.templates op.pattern.toList := by
  simp only [Operation.templates_eq_ofString, ← Text.ofString_eq_toList]
  decide +kernel

private theorem isPropertyOfObject_of_mem : ∀ op ∈ all, IsPropertyOfObject op := by
  decide

set_option maxRecDepth 10000 in
private theorem pairwise_yields : all.Pairwise fun earlier later =>
    earlier.Yields later ∨ (earlier = .mathFunction ∧ later.opcode = "sensing_of") := by
  simp only [Operation.Yields, Operation.templates_eq_ofString, Operation.forms_eq_ofString]
  decide +kernel

variable {op : Operation} {entries : String → Text}

/-- No earlier operation of the same shape reads the filled pattern. -/
private theorem match?_eq_none_of_earlier {earlier : Operation} (hop : op ∈ all)
    (hpair : earlier.Yields op ∨ (earlier = .mathFunction ∧ op.opcode = "sensing_of"))
    (hshape : earlier.shape = op.shape) (htakes : ∀ slot ∈ op.slots, slot.Takes (entries slot.name))
    (hproperty : op.opcode = "sensing_of" → entries "PROPERTY" ∉ mathFunctions.map String.toList) :
    earlier.match? (op.filled entries) = none := by
  rcases hpair with hyields | ⟨rfl, hopcode⟩
  · exact Operation.match?_eq_none_of_yields hyields hshape (isRegular_of_mem op hop) htakes
  · obtain ⟨hpattern, hslots⟩ := isPropertyOfObject_of_mem op hop hopcode
    rw [hslots] at htakes
    have hentry : (entries "PROPERTY").IsEntry := htakes _ List.mem_cons_self
    have hobject : (entries "OBJECT").IsEntry := htakes _ (List.mem_cons_of_mem _ List.mem_cons_self)
    rw [Operation.filled, hpattern, filled_ofObject]
    exact match?_mathFunction_eq_none hentry
      (((Template.fits_given _).append hobject.fits).append (Template.fits_given _)) (hproperty hopcode)

/-- The search, among the operations of a shape, finds an operation that reads the text if none that is tried before
does. -/
theorem lookup_eq_some {before after : List Operation} {t : Text} {values : Bindings}
    (hall : all = before ++ op :: after)
    (hbefore : ∀ earlier ∈ before, earlier.shape = op.shape → earlier.match? t = none)
    (hmatch : op.match? t = some values) : lookup [op.shape] t = some (op, values) := by
  have hnone : firstMatch? (before.filter fun earlier => [op.shape].contains earlier.shape) t = none := by
    refine List.findSome?_eq_none_iff.2 fun earlier hearlier => ?_
    obtain ⟨hmem, hshape⟩ := List.mem_filter.1 hearlier
    rw [hbefore earlier hmem (by simpa using hshape), Option.map_none]
  have hshapes : ofShapes [op.shape] = (before.filter fun earlier => [op.shape].contains earlier.shape) ++
      op :: after.filter fun later => [op.shape].contains later.shape := by
    simp [ofShapes, hall, List.filter_append]
  rw [lookup, if_neg (List.cons_ne_nil _ _), hshapes, firstMatch?, List.findSome?_append, ← firstMatch?, hnone,
    Option.none_or, List.findSome?_cons, hmatch, Option.map_some]

/-- The search for a filled pattern, among the operations of its shape, finds the operation of the pattern with the
texts that fill it. -/
theorem lookup_filled (hop : op ∈ all) (htakes : ∀ slot ∈ op.slots, slot.Takes (entries slot.name))
    (hproperty : op.opcode = "sensing_of" → entries "PROPERTY" ∉ mathFunctions.map String.toList) :
    lookup [op.shape] (op.filled entries) = some (op, op.slots.map fun slot => (slot.name, entries slot.name)) := by
  obtain ⟨before, after, hall⟩ := List.mem_iff_append.1 hop
  have hpairs := pairwise_yields
  rw [hall, List.pairwise_append] at hpairs
  have hbefore : ∀ earlier ∈ before, earlier.shape = op.shape → earlier.match? (op.filled entries) = none :=
    fun earlier hearlier hshape => match?_eq_none_of_earlier hop
      (hpairs.2.2 earlier hearlier op List.mem_cons_self) hshape htakes hproperty
  exact lookup_eq_some hall hbefore (Operation.match?_filled (isRegular_of_mem op hop) htakes)

/-- The filled pattern of a command is a statement. -/
theorem kindOf_filled_of_command (hop : op ∈ all) (hshape : op.shape = .command)
    (htakes : ∀ slot ∈ op.slots, slot.Takes (entries slot.name)) :
    Line.kindOf (op.filled entries) = (.statement, none) := by
  rcases (hasLineKind_of_mem op hop).1 hshape with htemplates | ⟨hsegments, hkind⟩
  · obtain ⟨s, hs, hfits⟩ := Operation.exists_templates (isRegular_of_mem op hop) htakes
    obtain ⟨hwords, hfirst⟩ := htemplates s hs
    refine Line.kindOf_eq_statement (fun word hword hprefix => ?_) fun c hc hmem => ?_
    · obtain ⟨rest, hrest⟩ := hprefix
      obtain ⟨s', hs', -⟩ := Template.exists_of_spell (hrest ▸ hfits)
      rw [hwords word hword] at hs'
      cases hs'
    · rw [List.eq_cons_of_mem_head? hc] at hfits
      obtain ⟨s', hs', -⟩ := Template.exists_of_step (k := .among ['e', 'E']) hfits (List.contains_iff_mem.2 hmem)
      rw [hfirst] at hs'
      cases hs'
  · have hfilled : op.filled entries = op.pattern.toList := by
      simp [Operation.filled, Pattern.filled, hsegments, Segment.filled]
    rw [hfilled, hkind]

/-- The filled pattern of a hat begins a script. -/
theorem kindOf_filled_of_hat (hop : op ∈ all) (hshape : op.shape = .hat)
    (htakes : ∀ slot ∈ op.slots, slot.Takes (entries slot.name)) :
    Line.kindOf (op.filled entries) = (.trigger, none) := by
  obtain ⟨s, hs, hfits⟩ := Operation.exists_templates (isRegular_of_mem op hop) htakes
  obtain ⟨⟨s, rfl⟩, hgiven, hanything⟩ := (hasLineKind_of_mem op hop).2 hshape s hs
  obtain ⟨start, rest, htext, hstart, hrest⟩ := Template.fits_append_iff.1 hfits
  rw [htext, Template.fits_given_iff.1 hstart]
  exact Line.kindOf_eq_trigger (Template.not_mem_of_fits hrest
    ⟨fun hmem => hgiven (List.mem_append_right _ hmem), fun hmem => hanything (List.mem_append_right _ hmem)⟩)

/-- A filled pattern is read as the operation that it belongs to, with the texts that fill it; a command is a
statement, and a hat begins a script. -/
theorem unambiguous (hop : op ∈ all) (htakes : ∀ slot ∈ op.slots, slot.Takes (entries slot.name))
    (hproperty : op.opcode = "sensing_of" → entries "PROPERTY" ∉ mathFunctions.map String.toList) :
    lookup [op.shape] (op.filled entries) = some (op, op.slots.map fun slot => (slot.name, entries slot.name)) ∧
      (op.shape = .command → Line.kindOf (op.filled entries) = (.statement, none)) ∧
      (op.shape = .hat → Line.kindOf (op.filled entries) = (.trigger, none)) :=
  ⟨lookup_filled hop htakes hproperty, fun hshape => kindOf_filled_of_command hop hshape htakes,
    fun hshape => kindOf_filled_of_hat hop hshape htakes⟩

/-- A property that begins with the name of a function, of an object whose name ends in the mark of a dropdown. -/
theorem unambiguous_property : ∃ op ∈ all, op.opcode = "sensing_of" ∧
    lookup [.reporter] "[abs of v] of (x v v)".toList =
      some (op, [("PROPERTY", "abs of".toList), ("OBJECT", "x v".toList)]) := by
  let entries (name : String) : Text := if name = "PROPERTY" then "abs of".toList else "x v".toList
  let op : Operation := .of "sensing_of" .sensing .reporter "[PROPERTY v] of (OBJECT v)"
    [⟨"PROPERTY", .field⟩, ⟨"OBJECT", .menu .ofObject⟩]
  have hop : op ∈ all := List.mem_of_getElem? (i := 94) rfl
  have htakes : ∀ slot ∈ op.slots, slot.Takes (entries slot.name) := by
    have hproperty : Text.IsEntry "abs of".toList := by decide
    have hobject : Text.IsEntry "x v".toList := by decide
    rintro slot (_ | ⟨_, _ | ⟨_, ⟨⟩⟩⟩)
    · exact hproperty
    · exact hobject
  have hout : entries "PROPERTY" ∉ mathFunctions.map String.toList := by decide
  have htext : op.filled entries = "[abs of v] of (x v v)".toList := by decide
  have hvalues : (op.slots.map fun slot => (slot.name, entries slot.name)) =
      [("PROPERTY", "abs of".toList), ("OBJECT", "x v".toList)] := by
    decide
  have hfound := (unambiguous hop htakes fun _ => hout).1
  rw [htext, hvalues] at hfound
  exact ⟨op, hop, rfl, hfound⟩

end Vocabulary

end BlockScript
