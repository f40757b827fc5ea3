import BlockScript.Proofs.Layout.Term
import BlockScript.Proofs.Phrase.Operand
import BlockScript.Proofs.Vocabulary.Bytes
import BlockScript.Proofs.Vocabulary.Form

/-!
# Well typed terms

A term is well typed if each operation in it is one of the vocabulary and its arguments fill its slots one by one:
a slot for a condition holds a boolean term, a slot for a value a reporter, a condition, a known name or the shadow
of its kind, and a field of choice one of the options.

Reading gives well typed terms wherever it can read a text at all (`Reader.isTyped_termAt`).  It makes operations in
five ways, by the vocabulary, by loose forms, by arithmetic, by connectives and comparisons, and by the lines of
containers; all that they have to share is that the operation is known and that the texts of its choices are options
(`Operation.Chosen`).
-/

namespace BlockScript

/-- Whether the slot takes a value, and no condition. -/
def SlotKind.isValue : SlotKind → Bool
  | literal _ => true
  | menu _ => true
  | _ => false

/-- The kinds as which the text of a slot may be read: an operand of a comparison may be a number. -/
def Operation.readings (op : Operation) (slot : Slot) : List SlotKind :=
  if op ∈ [Operation.equals, .greater, .less] then [.number, slot.kind] else [slot.kind]

mutual

/-- The operations of a term are known and their slots are filled; the term has the given shape. -/
inductive Term.IsTyped : Shape → Term → Prop where
  | apply {op : Operation} {arguments : Arguments} (known : op ∈ Vocabulary.all)
      (fill : Arguments.Fill op op.slots arguments) : Term.IsTyped op.shape (.apply op arguments)
  | noted {shape : Shape} {event : Event} {term : Term} (typed : Term.IsTyped shape term) :
      Term.IsTyped shape (.noted event term)

/-- An argument can stand in a slot of the given kind. -/
inductive Argument.Fits : SlotKind → Argument → Prop where
  | reference {kind : SlotKind} {entry : KnownName} (isValue : kind.isValue = true) :
      Argument.Fits kind (.reference entry)
  | entry {menu : Menu} {value : String} : Argument.Fits (.menu menu) (.shadow menu.shadow value)
  | literal {kind : Literal} {value : String} : Argument.Fits (.literal kind) (.shadow kind.shadow value)
  | condition {kind : Literal} {term : Term} (typed : Term.IsTyped .boolean term) :
      Argument.Fits (.literal kind) (.nested .boolean term)
  | reporter {kind : Literal} {term : Term} (typed : Term.IsTyped .reporter term) :
      Argument.Fits (.literal kind) (.nested .reporter term)
  | boolean {term : Term} (typed : Term.IsTyped .boolean term) : Argument.Fits .boolean (.nested .boolean term)
  | raw {value : String} : Argument.Fits .raw (.raw value)

/-- Arguments fill some slots of an operation, one each. -/
inductive Arguments.Fill : Operation → List Slot → Arguments → Prop where
  | done {op : Operation} : Arguments.Fill op [] .done
  | input {op : Operation} {slot : Slot} {slots : List Slot} {kind : SlotKind} {value : Argument} {rest : Arguments}
      (isInput : slot.kind.isField = false) (reading : kind ∈ op.readings slot) (fits : Argument.Fits kind value)
      (others : Arguments.Fill op slots rest) : Arguments.Fill op (slot :: slots) (.input slot.name value rest)
  | field {op : Operation} {slot : Slot} {slots : List Slot} {value : FieldValue} {rest : Arguments}
      (isField : slot.kind.isField = true)
      (chosen : ∀ options, slot.kind = .choice options → (value.inSlot slot.name).value ∈ options)
      (others : Arguments.Fill op slots rest) : Arguments.Fill op (slot :: slots) (.field slot.name value rest)

end

theorem Operation.kind_mem_readings (op : Operation) (slot : Slot) : slot.kind ∈ op.readings slot := by
  unfold readings
  split <;> simp

/-! ### Choices -/

/-- The texts for slots of choice are options of these slots. -/
def Operation.Chosen (op : Operation) (values : Bindings) : Prop :=
  ∀ slot ∈ op.slots, ∀ options, slot.kind = .choice options → ∀ t, values.lookup slot.name = some t →
    String.ofList t.bare.dropMarker ∈ options

/-- Whether a piece takes nothing but words for the given options. -/
def Piece.offers (options : List String) : Piece → Bool
  | .word _ words => words.all fun w => options.contains (String.ofList w.trim.bare.dropMarker)
  | _ => false

/-- Whether the pieces of a form that take the text of a slot of choice offer its options. -/
def Form.offersChoices (slots : List Slot) (form : Form) : Bool :=
  slots.all fun slot =>
    match slot.kind with
    | .choice options => form.all fun p => p.slot? != some slot.name || p.offers options
    | _ => true

theorem Operation.chosen_of_match? {op : Operation} {form : Form} {t : Text} {values : Bindings}
    (hform : form.offersChoices op.slots = true) (h : form.match? t = some values) : op.Chosen values := by
  intro slot hslot options hkind w hw
  obtain ⟨p, hp, hpslot, u, hu, rfl, -⟩ := Form.exists_of_lookup_match? h hw
  have hoffers := List.all_eq_true.1 hform slot hslot
  rw [hkind] at hoffers
  replace hoffers := List.all_eq_true.1 hoffers p hp
  rw [hpslot, bne_self_eq_false, Bool.false_or] at hoffers
  cases p with
  | word name words => exact List.contains_iff_mem.1 (List.all_eq_true.1 hoffers u hu)
  | _ => cases hoffers

/-- Whether the slot makes a choice. -/
def SlotKind.isChoice : SlotKind → Bool
  | choice _ => true
  | _ => false

/-- An operation without choices has no wrong ones. -/
theorem Operation.chosen_of_fixed {op : Operation} (h : ∀ slot ∈ op.slots, slot.kind.isChoice = false)
    (values : Bindings) : op.Chosen values := by
  intro slot hslot options hkind
  have hfixed := h slot hslot
  rw [hkind] at hfixed
  cases hfixed

namespace Vocabulary

/-- The patterns of the vocabulary offer the options of their choices. -/
theorem offersChoices_of_mem : ∀ op ∈ all, op.slots.any (·.kind.isChoice) = true →
    ∀ form ∈ op.forms, form.offersChoices op.slots = true := by
  simp only [Operation.forms_eq_ofString]
  decide +kernel

/-- An operation that reads a text is known, and its choices are options. -/
theorem known_of_lookup {shape : Shape} {t : Text} {op : Operation} {values : Bindings}
    (h : lookup [shape] t = some (op, values)) : op ∈ all ∧ op.Chosen values := by
  obtain ⟨hall, form, hform, hvalues⟩ := exists_form_of_lookup h
  refine ⟨hall, ?_⟩
  cases hany : op.slots.any (·.kind.isChoice) with
  | false => exact Operation.chosen_of_fixed (fun slot hslot => by simpa using List.any_eq_false.1 hany slot hslot) _
  | true => exact Operation.chosen_of_match? (offersChoices_of_mem op hall hany form hform) hvalues

end Vocabulary

namespace Reader

/-- A text reads as a reporter only by an operation that is known, and its choices are options. -/
theorem known_of_reporter {t : Text} {op : Operation} {values : Bindings}
    (h : reporter? t = some (op, values)) : op ∈ Vocabulary.all ∧ op.Chosen values := by
  rcases cases_of_reporter h with ⟨cut, hcut, rfl, -⟩ | hlookup | ⟨form, hmem, hmatch⟩
  · have hfixed : ∀ o ∈ Arithmetic.sums ++ Arithmetic.products,
        o.operation ∈ Vocabulary.all ∧ ∀ slot ∈ o.operation.slots, slot.kind.isChoice = false := by decide +kernel
    obtain ⟨o, ho, he⟩ := Arithmetic.exists_operator_of_split hcut
    rw [he]
    exact ⟨(hfixed o ho).1, Operation.chosen_of_fixed (hfixed o ho).2 values⟩
  · exact Vocabulary.known_of_lookup hlookup
  · have hloose : ∀ loose ∈ looseReporters,
        loose.1 ∈ Vocabulary.all ∧ loose.2.offersChoices loose.1.slots = true := by decide +kernel
    obtain ⟨hknown, hoffers⟩ := hloose (op, form) hmem
    exact ⟨hknown, Operation.chosen_of_match? hoffers hmatch⟩

variable (r : Reader) {value : SlotKind → Text → Argument} {condition : Text → Term}

/-! ### One level -/

private theorem lookup_of_mem_names {values : Bindings} {name : String} {slots : List Slot}
    (h : name ∈ (r.arguments value condition values slots).inputNames ∨
      name ∈ (r.arguments value condition values slots).fieldNames) : (values.lookup name).isSome = true := by
  induction slots with
  | nil => rcases h with h | h <;> cases h
  | cons slot slots ih =>
    unfold arguments at h
    split at h
    · exact ih h
    · rename_i t ht
      have hname (hmem : name = slot.name) : (values.lookup name).isSome = true := by
        rw [hmem, ht]
        rfl
      split_ifs at h
      · rcases h with h | h
        · exact ih (.inl h)
        · rcases List.mem_cons.1 h with h | h
          · exact hname h
          · exact ih (.inr h)
      all_goals
        rcases h with h | h
        · rcases List.mem_cons.1 h with h | h
          · exact hname h
          · exact ih (.inl h)
        · exact ih (.inr h)

/-- All slots of an operation have a text if its arguments fill them. -/
private theorem lookup_of_isFilled {op : Operation} {values : Bindings}
    (h : op.isFilled (r.arguments value condition values op.slots).inputNames
      (r.arguments value condition values op.slots).fieldNames = true) :
    ∀ slot ∈ op.slots, (values.lookup slot.name).isSome = true := by
  intro slot hslot
  obtain ⟨hinputs, hfields⟩ := Bool.and_eq_true_iff.1 h
  apply @lookup_of_mem_names r value condition values slot.name op.slots
  cases hkind : slot.kind.isField with
  | false =>
    refine .inl (List.contains_iff_mem.1 (List.all_eq_true.1 hinputs slot (List.mem_filter.2 ⟨hslot, ?_⟩)))
    rw [hkind]
    rfl
  | true => exact .inr (List.contains_iff_mem.1 (List.all_eq_true.1 hfields slot (List.mem_filter.2 ⟨hslot, hkind⟩)))

private theorem isValue_of_not {kind : SlotKind} (hfield : ¬kind.isField = true) (hboolean : kind ≠ .boolean)
    (hraw : kind ≠ .raw) : kind.isValue = true := by
  cases kind with
  | literal => rfl
  | menu => rfl
  | boolean => exact absurd rfl hboolean
  | raw => exact absurd rfl hraw
  | _ => exact absurd rfl hfield

/-- A truth value of two operands is well typed if each of them fits where it stands. -/
private theorem isTyped_operands {op : Operation} {kind leftKind rightKind : SlotKind} {left right : Argument}
    (hknown : op ∈ Vocabulary.all) (hshape : op.shape = .boolean)
    (hslots : op.slots = [⟨"OPERAND1", kind⟩, ⟨"OPERAND2", kind⟩]) (hfield : kind.isField = false)
    (hleftKind : leftKind ∈ op.readings ⟨"OPERAND1", kind⟩) (hrightKind : rightKind ∈ op.readings ⟨"OPERAND2", kind⟩)
    (hleft : left.isComplete = true → left.Fits leftKind) (hright : right.isComplete = true → right.Fits rightKind)
    (hc : (Term.apply op (.input "OPERAND1" left (.input "OPERAND2" right .done))).isComplete = true) :
    (Term.apply op (.input "OPERAND1" left (.input "OPERAND2" right .done))).IsTyped .boolean := by
  obtain ⟨harguments, -⟩ := Bool.and_eq_true_iff.1 hc
  obtain ⟨hfirst, hrest⟩ := Bool.and_eq_true_iff.1 harguments
  obtain ⟨hsecond, -⟩ := Bool.and_eq_true_iff.1 hrest
  rw [← hshape]
  refine .apply hknown ?_
  rw [hslots]
  exact .input hfield hleftKind (hleft hfirst) (.input hfield hrightKind (hright hsecond) .done)

private theorem isValue_operandKind (t : Text) : (operandKind t).isValue = true := by
  rw [operandKind]
  split <;> rfl

/-- An operand of a comparison may be kept as a number. -/
private theorem operandKind_mem_readings {op : Operation} (h : op ∈ [Operation.equals, .greater, .less])
    (name : String) (t : Text) : operandKind t ∈ op.readings ⟨name, .value⟩ := by
  rw [Operation.readings, if_pos h, operandKind]
  split <;> simp

section Steps

variable (hvalue : ∀ kind t, kind.isValue = true → (value kind t).isComplete = true → (value kind t).Fits kind)
  (hcondition : ∀ t, (condition t).isComplete = true → (condition t).IsTyped .boolean)

include hvalue hcondition

private theorem fill_arguments {op : Operation} {values : Bindings} {slots : List Slot}
    (hall : ∀ slot ∈ slots, (values.lookup slot.name).isSome = true)
    (hchosen : ∀ slot ∈ slots, ∀ options, slot.kind = .choice options → ∀ t, values.lookup slot.name = some t →
      String.ofList t.bare.dropMarker ∈ options)
    (hc : (r.arguments value condition values slots).isComplete = true) :
    Arguments.Fill op slots (r.arguments value condition values slots) := by
  induction slots with
  | nil => exact .done
  | cons slot slots ih =>
    obtain ⟨hslot, hslots⟩ := List.forall_mem_cons.1 hall
    obtain ⟨hchoice, hchoices⟩ := List.forall_mem_cons.1 hchosen
    obtain ⟨t, ht⟩ := Option.isSome_iff_exists.1 hslot
    unfold arguments at hc ⊢
    rw [ht] at hc ⊢
    dsimp only at hc ⊢
    split_ifs at hc ⊢ with hfield hboolean hraw
    · refine .field hfield (fun options hoptions => ?_) (ih hslots hchoices hc)
      have hplain : r.fieldValue slot.kind t = .plain (String.ofList t.bare.dropMarker) := by
        unfold fieldValue
        rw [hoptions]
        rfl
      rw [hplain]
      exact hchoice options hoptions t ht
    all_goals
      have hfield : slot.kind.isField = false := Bool.eq_false_iff.2 hfield
      obtain ⟨hargument, hothers⟩ := Bool.and_eq_true_iff.1 hc
      have hothers := ih hslots hchoices hothers
      have hreading := op.kind_mem_readings slot
    · rw [hboolean] at hreading
      exact .input hfield hreading (.boolean (hcondition t hargument)) hothers
    · rw [hraw] at hreading
      exact .input hfield hreading .raw hothers
    · have hkind := isValue_of_not (Bool.eq_false_iff.1 hfield) hboolean hraw
      exact .input hfield hreading (hvalue slot.kind t hkind hargument) hothers

private theorem isTyped_applied {op : Operation} {values : Bindings} (hknown : op ∈ Vocabulary.all)
    (hchosen : op.Chosen values) (hc : (r.applied value condition op values).isComplete = true) :
    (r.applied value condition op values).IsTyped op.shape := by
  obtain ⟨harguments, hfilled⟩ := Bool.and_eq_true_iff.1 hc
  exact .apply hknown (r.fill_arguments hvalue hcondition (r.lookup_of_isFilled hfilled) hchosen harguments)

private theorem fits_valueStep {kind : SlotKind} {token : Text} (hkind : kind.isValue = true)
    (hc : (r.valueStep value condition kind token).isComplete = true) :
    (r.valueStep value condition kind token).Fits kind := by
  cases kind with
  | menu menu =>
    unfold valueStep
    dsimp only
    split
    · exact .reference hkind
    · exact .entry
  | literal kind =>
    unfold valueStep at hc ⊢
    dsimp only at hc ⊢
    split at hc
    · exact .reference hkind
    · split_ifs at hc ⊢ with hwrapped
      · exact .condition (hcondition _ hc)
      · split at hc
        · exact .literal
        · split at hc
          · rename_i term hterm
            obtain ⟨⟨op, values⟩, hfound, rfl⟩ := Option.map_eq_some_iff.1 hterm
            obtain ⟨hknown, hchosen⟩ := known_of_reporter hfound
            refine .reporter ?_
            rw [← shape_of_reporter hfound]
            exact r.isTyped_applied hvalue hcondition hknown hchosen hc
          · exact .literal
  | _ => cases hkind

private theorem isTyped_conditionStep {token : Text}
    (hc : (r.conditionStep value condition token).isComplete = true) :
    (r.conditionStep value condition token).IsTyped .boolean := by
  have hconnectives : ∀ w ∈ connectives, w.2 ∈ Vocabulary.all ∧ w.2.shape = .boolean ∧
      w.2.slots = [⟨"OPERAND1", .boolean⟩, ⟨"OPERAND2", .boolean⟩] := by decide +kernel
  have hcomparisons : ∀ w ∈ comparisons, w.2 ∈ Vocabulary.all ∧ w.2.shape = .boolean ∧
      w.2.slots = [⟨"OPERAND1", .value⟩, ⟨"OPERAND2", .value⟩] ∧
        w.2 ∈ [Operation.equals, .greater, .less] := by decide +kernel
  have hpredicates : ∀ op ∈ predicates, op ∈ Vocabulary.all ∧ op.shape = .boolean ∧
      ∀ slot ∈ op.slots, slot.kind.isChoice = false := by decide +kernel
  unfold conditionStep at hc ⊢
  dsimp only at hc ⊢
  split_ifs at hc ⊢
  · cases hc
  · split at hc
    · rename_i op left right hsplit
      obtain ⟨w, hw, rfl⟩ := mem_of_splitAtFirst hsplit
      obtain ⟨hknown, hshape, hslots⟩ := hconnectives w hw
      exact isTyped_operands hknown hshape hslots rfl (w.2.kind_mem_readings ⟨"OPERAND1", .boolean⟩)
        (w.2.kind_mem_readings ⟨"OPERAND2", .boolean⟩) (fun hleft => .boolean (hcondition left hleft))
        (fun hright => .boolean (hcondition right hright)) hc
    · split at hc
      · rename_i op left right hsplit
        obtain ⟨w, hw, rfl⟩ := mem_of_splitAtFirst hsplit
        obtain ⟨hknown, hshape, hslots, hcomparison⟩ := hcomparisons w hw
        have hreading := operandKind_mem_readings hcomparison
        exact isTyped_operands hknown hshape hslots rfl (hreading "OPERAND1" left) (hreading "OPERAND2" right)
          (hvalue _ _ (isValue_operandKind left)) (hvalue _ _ (isValue_operandKind right)) hc
      · split at hc
        · rename_i op values hfound
          obtain ⟨hknown, hshape, hfixed⟩ := hpredicates op (mem_of_predicate hfound)
          rw [← hshape]
          exact .noted (r.isTyped_applied hvalue hcondition hknown (Operation.chosen_of_fixed hfixed values) hc)
        · cases hc

end Steps

/-! ### All levels -/

mutual

private theorem fits_value : (levels : Nat) → (kind : SlotKind) → (t : Text) → kind.isValue = true →
    (r.value levels kind t).isComplete = true → (r.value levels kind t).Fits kind
  | 0, _, _, _, hc => nomatch hc
  | levels + 1, _, _, hkind, hc =>
    r.fits_valueStep (fits_value levels) (isTyped_condition levels) hkind hc

private theorem isTyped_condition : (levels : Nat) → (t : Text) → (r.condition levels t).isComplete = true →
    (r.condition levels t).IsTyped .boolean
  | 0, _, hc => nomatch hc
  | levels + 1, _, hc => r.isTyped_conditionStep (fits_value levels) (isTyped_condition levels) hc

end

/-- An operation that is known and whose choices are options is well typed wherever its slots can be read. -/
theorem isTyped_termAt {depth : Int} {op : Operation} {values : Bindings} (hknown : op ∈ Vocabulary.all)
    (hchosen : op.Chosen values) (hc : (r.termAt depth op values).isComplete = true) :
    (r.termAt depth op values).IsTyped op.shape :=
  r.isTyped_applied (r.fits_value _) (r.isTyped_condition _) hknown hchosen hc

end Reader

end BlockScript
