import BlockScript.Proofs.Layout.Draft
import BlockScript.Proofs.Phrase.Typing

/-!
# Well typed blocks

`Script.IsTyped` says that a block of a script fits the operation of its opcode: it has its shape, one field for each of
its slots for fields, one input for each other slot, in their order, and behind them the bodies that the operation may
have.  What an input leads to fits its slot, and what follows a block is a command or a container.

The blocks of well typed terms are well typed (`Arguments.isTyped_blocks`), and so are those of readable items, whose
bodies are put in later and whose operation changes with a second body (`Item.grants_isTyped`).
-/

namespace BlockScript

/-- The slots of an operation that its bodies take. -/
def Operation.bodySlots (op : Operation) : List String :=
  if op.shape = .container then
    if op.opcode = "control_if_else" then [Script.firstBody, Script.secondBody] else [Script.firstBody]
  else []

/-- The block is a shadow of the given sort, which holds nothing but a value. -/
def Block.IsShadow (b : Block) (shadow : Shadow) : Prop :=
  b.shadow = true ∧ b.opcode = shadow.opcode ∧ b.inputs = [] ∧ ∃ value, b.fields = [⟨shadow.field, value, none⟩]

namespace Script

/-- An input of a script holds what fits a slot of some name and kind. -/
inductive Holds (s : Script) (slot : String) : SlotKind → Input → Prop where
  | reference {kind : SlotKind} {id value : String} {nameKind : NameKind} (isValue : kind.isValue = true) :
      Holds s slot kind (.reference slot id value nameKind)
  | entry {menu : Menu} {id : BlockId} {c : Block} (get : s.blocks.get? id = some c)
      (isShadow : c.IsShadow menu.shadow) : Holds s slot (.menu menu) (.block slot menu.shadow.kind id)
  | literal {kind : Literal} {id : BlockId} {c : Block} (get : s.blocks.get? id = some c)
      (isShadow : c.IsShadow kind.shadow) : Holds s slot (.literal kind) (.block slot kind.shadow.kind id)
  | condition {kind : Literal} {id : BlockId} {c : Block} (get : s.blocks.get? id = some c)
      (shape : c.shape = .boolean) (shadow : c.shadow = false) : Holds s slot (.literal kind) (.block slot .boolean id)
  | reporter {kind : Literal} {id : BlockId} {c : Block} (get : s.blocks.get? id = some c)
      (shape : c.shape = .reporter) (shadow : c.shadow = false) :
      Holds s slot (.literal kind) (.block slot .reporter id)
  | boolean {id : BlockId} {c : Block} (get : s.blocks.get? id = some c) (shape : c.shape = .boolean)
      (shadow : c.shadow = false) : Holds s slot .boolean (.block slot .boolean id)
  | raw {value : String} : Holds s slot .raw (.raw slot value)

/-- An input of a script holds what fits a slot of an operation. -/
def HoldsFor (s : Script) (op : Operation) (input : Input) (slot : Slot) : Prop :=
  ∃ kind ∈ op.readings slot, s.Holds slot.name kind input

/-- A field has the name of a slot, and holds one of its options if it has any. -/
def FieldFor (field : Field) (slot : Slot) : Prop :=
  field.slot = slot.name ∧ ∀ options, slot.kind = .choice options → field.value ∈ options

/-- A block can stand above or below another one. -/
def HasStacked (s : Script) (id : BlockId) : Prop :=
  ∃ c, s.blocks.get? id = some c ∧ (c.shape = .command ∨ c.shape = .container)

/-- A block of a script is one of the given operation. -/
structure Carries (s : Script) (op : Operation) (b : Block) : Prop where
  shape : b.shape = op.shape
  fields : List.Forall₂ FieldFor b.fields op.fieldSlots
  /-- Behind the inputs for the slots come the bodies that are not empty. -/
  inputs : ∃ own bodies, b.inputs = own ++ bodies ∧ List.Forall₂ (s.HoldsFor op) own op.inputSlots ∧
    (bodies.map Input.slot).Sublist op.bodySlots ∧
      ∀ input ∈ bodies, ∃ slot id, input = .block slot .substack id ∧ s.HasStacked id

/-- A block of a script is well typed. -/
structure IsTyped (s : Script) (b : Block) : Prop where
  carries : b.shadow = false → ∃ op, Vocabulary.get? b.opcode = some op ∧ s.Carries op b
  next : ∀ id, b.next = some id → s.HasStacked id

end Script

private theorem Vocabulary.nodup_opcodes : (all.map Operation.opcode).Nodup := by
  decide +kernel

/-- An operation of the vocabulary is found by its opcode. -/
theorem Vocabulary.get?_of_mem : ∀ op ∈ all, get? op.opcode = some op := by
  intro op hop
  obtain ⟨found, hfound⟩ : ∃ found, get? op.opcode = some found :=
    Option.isSome_iff_exists.1 (List.find?_isSome.2 ⟨op, hop, by simp⟩)
  have hopcode : found.opcode = op.opcode := by simpa using List.find?_some hfound
  have hmem : found ∈ all := List.mem_of_find?_eq_some hfound
  rw [hfound, List.inj_on_of_nodup_map nodup_opcodes hmem hop hopcode]

/-! ### Terms -/

variable {s : Script} {ids : IdSource}

/-- The block of a well typed term stands under its first id. -/
theorem Term.exists_block (n : Nat) (owner : Option BlockId) {shape : Shape} : (t : Term) → t.IsTyped shape →
    ∃ c ∈ t.blocks ids n owner, c.id = ids n ∧ c.shape = shape ∧ c.shadow = false
  | .apply op arguments, .apply _ _ => by
    rw [Term.blocks]
    exact ⟨_, List.mem_append_right _ (List.mem_singleton.2 rfl), rfl, rfl, rfl⟩
  | .noted _ term, .noted typed => by
    rw [Term.blocks]
    exact term.exists_block n owner typed

private theorem Argument.exists_input {n : Nat} {owner : BlockId} (slot : String) {kind : SlotKind} {v : Argument}
    (h : v.Fits kind) (hget : ∀ c ∈ v.blocks ids n owner, s.blocks.get? c.id = some c) :
    ∃ input, v.input? ids n slot = some input ∧ s.Holds slot kind input := by
  cases h with
  | reference isValue => exact ⟨_, rfl, .reference isValue⟩
  | entry =>
    refine ⟨_, rfl, .entry (hget _ (List.mem_singleton.2 rfl)) ⟨rfl, rfl, rfl, _, rfl⟩⟩
  | literal =>
    refine ⟨_, rfl, .literal (hget _ (List.mem_singleton.2 rfl)) ⟨rfl, rfl, rfl, _, rfl⟩⟩
  | condition typed =>
    obtain ⟨c, hc, hid, hshape, hshadow⟩ := @Term.exists_block ids n (some owner) _ _ typed
    exact ⟨_, rfl, .condition (hid ▸ hget c hc) hshape hshadow⟩
  | reporter typed =>
    obtain ⟨c, hc, hid, hshape, hshadow⟩ := @Term.exists_block ids n (some owner) _ _ typed
    exact ⟨_, rfl, .reporter (hid ▸ hget c hc) hshape hshadow⟩
  | boolean typed =>
    obtain ⟨c, hc, hid, hshape, hshadow⟩ := @Term.exists_block ids n (some owner) _ _ typed
    exact ⟨_, rfl, .boolean (hid ▸ hget c hc) hshape hshadow⟩
  | raw => exact ⟨_, rfl, .raw⟩

/-- The inputs of arguments that fill some slots hold what fits them. -/
theorem Arguments.holdsFor_inputs {op : Operation} (owner : BlockId) : (a : Arguments) → (n : Nat) →
    (slots : List Slot) → Arguments.Fill op slots a → (∀ c ∈ a.blocks ids n owner, s.blocks.get? c.id = some c) →
      List.Forall₂ (s.HoldsFor op) (a.inputs ids n) (slots.filter (!·.kind.isField))
  | .done, _, _, .done, _ => .nil
  | .input _ value rest, n, _, .input isInput reading fits others, hget => by
    rw [Arguments.blocks] at hget
    obtain ⟨hvalue, hrest⟩ := List.forall_mem_append.1 hget
    obtain ⟨input, hinput, hholds⟩ := Argument.exists_input _ fits hvalue
    rw [Arguments.inputs, hinput, List.filter_cons_of_pos (by rw [isInput]; rfl)]
    exact .cons ⟨_, reading, hholds⟩ (rest.holdsFor_inputs owner _ _ others hrest)
  | .field _ _ rest, n, _, .field isField _ others, hget => by
    rw [Arguments.blocks] at hget
    rw [Arguments.inputs, List.filter_cons_of_neg (by rw [isField]; decide)]
    exact rest.holdsFor_inputs owner n _ others hget

/-- The fields of arguments that fill some slots are those of the slots. -/
theorem Arguments.fieldFor_fields {op : Operation} : (a : Arguments) → (slots : List Slot) →
    Arguments.Fill op slots a → List.Forall₂ Script.FieldFor a.fields (slots.filter (·.kind.isField))
  | .done, _, .done => .nil
  | .input _ value rest, _, .input isInput _ _ others => by
    rw [Arguments.fields, List.filter_cons_of_neg (by rw [isInput]; decide)]
    exact rest.fieldFor_fields _ others
  | .field _ value rest, _, .field isField chosen others => by
    have hslot (slot : String) : (value.inSlot slot).slot = slot := by
      match value with
      | .plain _ => rfl
      | .variableName _ (some _) => rfl
      | .variableName _ none => rfl
    rw [Arguments.fields, List.filter_cons_of_pos (by exact isField)]
    exact .cons ⟨hslot _, chosen⟩ (rest.fieldFor_fields _ others)

private theorem grants_isTyped_term (s : Script) (ids : IdSource) : Term.Grants ids
    (fun t => ∃ shape, t.IsTyped shape) (fun v => ∃ kind, v.Fits kind) (fun a => ∃ op slots, Arguments.Fill op slots a)
    (fun c => s.blocks.get? c.id = some c) s.IsTyped where
  apply := by
    rintro op arguments ⟨_, typed⟩
    cases typed with
    | apply known fill => exact ⟨_, _, fill⟩
  noted := by
    rintro event term ⟨_, typed⟩
    cases typed with
    | noted typed => exact ⟨_, typed⟩
  nested := by
    rintro kind term ⟨_, fits⟩
    cases fits with
    | condition typed => exact ⟨_, typed⟩
    | reporter typed => exact ⟨_, typed⟩
    | boolean typed => exact ⟨_, typed⟩
  input := by
    rintro slot value rest ⟨_, _, fill⟩
    cases fill with
    | input isInput reading fits others => exact ⟨⟨_, fits⟩, _, _, others⟩
  field := by
    rintro slot value rest ⟨_, _, fill⟩
    cases fill with
    | field isField chosen others => exact ⟨_, _, others⟩
  operation := by
    rintro op arguments n owner ⟨_, typed⟩ hget
    cases typed with
    | apply known fill =>
      refine ⟨fun _ => ⟨op, Vocabulary.get?_of_mem op known, rfl, arguments.fieldFor_fields _ fill, ?_⟩,
        fun id hid => nomatch hid⟩
      exact ⟨_, [], (List.append_nil _).symm, arguments.holdsFor_inputs (ids n) _ _ fill hget, List.nil_sublist _,
        fun input hinput => nomatch hinput⟩
  shadow _ := ⟨(fun hshadow => nomatch hshadow), fun id hid => nomatch hid⟩

/-- The blocks of arguments that fill some slots are well typed. -/
theorem Arguments.isTyped_blocks (n : Nat) (owner : BlockId) {op : Operation} {slots : List Slot} (a : Arguments)
    (h : Arguments.Fill op slots a) (hget : ∀ c ∈ a.blocks ids n owner, s.blocks.get? c.id = some c) :
    ∀ b ∈ a.blocks ids n owner, s.IsTyped b :=
  a.forall_blocks (grants_isTyped_term s ids) n owner ⟨op, slots, h⟩ hget

/-! ### Lines -/

namespace Reader

variable {r : Reader} {line : Line}

private theorem isTyped_whole {shape : Shape} {t : Text} {fault : Fault}
    (hc : (r.whole shape t fault).isComplete = true) : (r.whole shape t fault).IsTyped shape := by
  unfold whole at hc ⊢
  split at hc
  · rename_i op values hlookup
    obtain ⟨hknown, hchosen⟩ := Vocabulary.known_of_lookup hlookup
    rw [← Vocabulary.shape_of_lookup hlookup]
    exact r.isTyped_termAt hknown hchosen hc
  · cases hc

/-- The hat of a readable line is well typed. -/
theorem isTyped_trigger (hk : line.kind = .trigger) (h : r.isReadable line = true) :
    (r.phrase line).term.IsTyped .hat := by
  obtain ⟨hterm, hfits⟩ := fits_trigger hk h
  rw [instruction_trigger hk] at hterm
  have hcomplete := hfits.complete
  rw [← Instruction.trigger.inj hterm] at hcomplete ⊢
  exact isTyped_whole hcomplete

/-- The command of a readable line is well typed. -/
theorem isTyped_statement (hk : line.kind = .statement) (h : r.isReadable line = true) :
    (r.phrase line).term.IsTyped .command := by
  obtain ⟨hterm, hfits⟩ := fits_statement hk h
  rw [instruction_statement hk] at hterm
  have hcomplete := hfits.complete
  rw [← Instruction.add.inj hterm] at hcomplete ⊢
  exact isTyped_whole hcomplete

/-- The container of a readable line is well typed. -/
theorem isTyped_opener (hk : line.kind.opens = true) (h : r.isReadable line = true) :
    (r.phrase line).term.IsTyped .container := by
  have hcontainer : line.kind.container ∈ Vocabulary.all ∧ line.kind.container.shape = .container ∧
      ∀ slot ∈ line.kind.container.slots, slot.kind.isChoice = false := by
    unfold LineKind.container
    split <;> decide +kernel
  obtain ⟨values, hinstruction⟩ := instruction_opener (r := r) hk
  obtain ⟨hterm, hfits, -⟩ := fits_opener hk h
  rw [hinstruction] at hterm
  have hcomplete := hfits.complete
  rw [← Instruction.enter.inj hterm] at hcomplete ⊢
  obtain ⟨hknown, hshape, hfixed⟩ := hcontainer
  rw [← hshape]
  exact r.isTyped_termAt hknown (Operation.chosen_of_fixed hfixed values) hcomplete

end Reader

/-! ### Items -/

namespace Item

variable {r : Reader}

/-- The operation of an item: that of its first line, unless it has a second body. -/
def operation (r : Reader) : Item → Operation
  | statement line _ => (r.phrase line).op
  | enclosed opener _ _ _ _ => (r.phrase opener).op
  | forked _ _ _ _ _ _ _ _ => .ifElse

private theorem known_phrase {item : Item} (h : ∀ line ∈ item.lines, r.isReadable line = true) :
    (r.phrase item.opener).op ∈ Vocabulary.all ∧
      Arguments.Fill (r.phrase item.opener).op (r.phrase item.opener).op.slots (r.phrase item.opener).arguments := by
  have hopener := h item.opener item.opener_mem_lines
  obtain ⟨shape, typed⟩ : ∃ shape, (r.phrase item.opener).term.IsTyped shape := by
    cases item with
    | statement line isStatement => exact ⟨_, Reader.isTyped_statement isStatement hopener⟩
    | enclosed opener opens => exact ⟨_, Reader.isTyped_opener opens hopener⟩
    | forked opener isIf =>
      have opens : opener.kind.opens = true := by rw [isIf]; rfl
      exact ⟨_, Reader.isTyped_opener opens hopener⟩
  cases typed with
  | apply known fill => exact ⟨known, fill⟩

/-- A second body changes the operation of an item, but neither its shape nor its slots. -/
private theorem operation_eq {item : Item} (h : ∀ line ∈ item.lines, r.isReadable line = true) (n : Nat) :
    item.operation r ∈ Vocabulary.all ∧ (item.operation r).opcode = (item.block r ids n).opcode ∧
      (item.operation r).shape = (r.phrase item.opener).op.shape ∧
        (item.operation r).slots = (r.phrase item.opener).op.slots ∧
          (item.operation r).readings = (r.phrase item.opener).op.readings := by
  have hknown := (known_phrase h).1
  cases item with
  | statement => exact ⟨hknown, rfl, rfl, rfl, rfl⟩
  | enclosed opener opens body closer closes =>
    refine ⟨hknown, ?_, rfl, rfl, rfl⟩
    rw [block, Block.opcode_withBody]
    rfl
  | forked opener isIf body middle isElse alternative closer closes =>
    have hop : (r.phrase opener).op = .ifThen := by
      rw [Reader.op_phrase_opener (by rw [isIf]; rfl), isIf]
      rfl
    have hifElse : Operation.ifElse ∈ Vocabulary.all := by decide +kernel
    refine ⟨hifElse, ?_, ?_, ?_, ?_⟩
    · rw [block, Block.opcode_withBody]
      rfl
    · show _ = (r.phrase opener).op.shape
      rw [hop]
      rfl
    · show _ = (r.phrase opener).op.slots
      rw [hop]
      rfl
    · show Operation.ifElse.readings = (r.phrase opener).op.readings
      rw [hop]
      funext slot
      unfold Operation.readings
      rw [if_neg (by decide), if_neg (by decide)]

private theorem slots_bodyInputs {item : Item} (h : ∀ line ∈ item.lines, r.isReadable line = true) (n : Nat) :
    ((item.bodyInputs r ids n).map Input.slot).Sublist (item.operation r).bodySlots := by
  have hbody (slot : String) (first? : Option BlockId) :
      ((first?.toList.map (Input.block slot .substack)).map Input.slot).Sublist [slot] := by
    cases first? with
    | none => exact List.nil_sublist _
    | some first => exact List.Sublist.refl _
  cases item with
  | statement => exact List.nil_sublist _
  | enclosed opener opens body closer closes =>
    have hslots : (r.phrase opener).op.bodySlots = [Script.firstBody] := by
      rw [Reader.op_phrase_opener opens]
      unfold LineKind.container
      split <;> decide
    show (List.map _ _).Sublist (r.phrase opener).op.bodySlots
    rw [hslots]
    exact hbody _ _
  | forked opener isIf body middle isElse alternative closer closes =>
    have hslots : Operation.ifElse.bodySlots = [Script.firstBody] ++ [Script.secondBody] := by decide
    show (List.map _ _).Sublist Operation.ifElse.bodySlots
    rw [hslots, bodyInputs, List.map_append]
    exact (hbody _ _).append (hbody _ _)

private theorem hasStacked_of_first {n : Nat} {parent : Option BlockId} {items : List Item} {id : BlockId}
    (h : ∀ line ∈ allLines items, r.isReadable line = true)
    (hget : ∀ c ∈ chained r ids n parent items, s.blocks.get? c.id = some c) (hid : first? ids n items = some id) :
    s.HasStacked id := by
  obtain ⟨c, hc, rfl, -, hstacked⟩ := @exists_stacked_of_chained r ids n parent items id h hid
  refine ⟨c, hget c hc, ?_⟩
  cases hshape : c.shape with
  | command => exact .inl rfl
  | container => exact .inr rfl
  | _ =>
    rw [hshape] at hstacked
    cases hstacked

private theorem hasStacked_of_bodyInputs {n : Nat} {item : Item}
    (h : ∀ line ∈ item.lines, r.isReadable line = true)
    (hget : ∀ c ∈ item.inside r ids n, s.blocks.get? c.id = some c) :
    ∀ input ∈ item.bodyInputs r ids n, ∃ slot id, input = .block slot .substack id ∧ s.HasStacked id := by
  intro input hinput
  cases item with
  | statement => cases hinput
  | enclosed opener opens body closer closes =>
    rw [inside] at hget
    obtain ⟨first, hfirst, rfl⟩ := List.mem_map.1 hinput
    exact ⟨_, first, rfl, hasStacked_of_first (forall_of_enclosed h) hget (Option.mem_toList.1 hfirst)⟩
  | forked opener isIf body middle isElse alternative closer closes =>
    rw [inside] at hget
    obtain ⟨hbody, halternative⟩ := forall_of_forked h
    obtain ⟨hgetBody, hgetAlternative⟩ := List.forall_mem_append.1 hget
    rcases List.mem_append.1 hinput with hinput | hinput
    · obtain ⟨first, hfirst, rfl⟩ := List.mem_map.1 hinput
      exact ⟨_, first, rfl, hasStacked_of_first hbody hgetBody (Option.mem_toList.1 hfirst)⟩
    · obtain ⟨first, hfirst, rfl⟩ := List.mem_map.1 hinput
      exact ⟨_, first, rfl, hasStacked_of_first halternative hgetAlternative (Option.mem_toList.1 hfirst)⟩

/-- The blocks that an item has itself are well typed. -/
theorem grants_isTyped : Grants r ids (fun line => r.isReadable line = true) (fun c => s.blocks.get? c.id = some c)
    s.IsTyped where
  before {n parent item rest} h hget := by
    rw [chained_cons] at hget
    obtain ⟨hbefore, -⟩ := List.forall_mem_append.1 (List.forall_mem_append.1 hget).1
    exact (r.phrase item.opener).arguments.isTyped_blocks _ _ (known_phrase (forall_allLines_cons.1 h).1).2 hbefore
  block {n parent item rest} h hget := by
    obtain ⟨hitem, hrest⟩ := forall_allLines_cons.1 h
    obtain ⟨-, hfill⟩ := known_phrase hitem
    obtain ⟨hknown, hopcode, hshape, hslots, hreadings⟩ := @operation_eq ids r item hitem n
    rw [chained_cons] at hget
    obtain ⟨hgetItem, hgetRest⟩ := List.forall_mem_append.1 hget
    obtain ⟨hbefore, hgetBelow⟩ := List.forall_mem_append.1 hgetItem
    obtain ⟨-, hgetInside⟩ := List.forall_mem_cons.1 hgetBelow
    refine ⟨fun _ => ⟨item.operation r, ?_, ?_, ?_, ?_⟩, fun id hid => hasStacked_of_first hrest hgetRest hid⟩
    · show Vocabulary.get? (item.block r ids n).opcode = _
      rw [← hopcode]
      exact Vocabulary.get?_of_mem _ hknown
    · show (item.block r ids n).shape = _
      rw [shape_block, hshape]
    · show List.Forall₂ _ (item.block r ids n).fields _
      rw [fields_block, Operation.fieldSlots, hslots]
      exact Arguments.fieldFor_fields _ _ hfill
    · refine ⟨_, _, inputs_block hitem n, ?_, slots_bodyInputs hitem n, hasStacked_of_bodyInputs hitem hgetInside⟩
      have hholds := (r.phrase item.opener).arguments.holdsFor_inputs (ids n) (n + 1) _ hfill hbefore
      rw [Operation.inputSlots, hslots]
      unfold Script.HoldsFor at hholds ⊢
      rwa [hreadings]

end Item

/-! ### Scripts -/

namespace Outline

variable {r : Reader}

/-- The blocks of a readable script are well typed. -/
theorem isTyped_script {n : Nat} {o : Outline} (h : ∀ line ∈ o.lines, r.isReadable line = true)
    (hget : ∀ c ∈ o.blocks r ids n, s.blocks.get? c.id = some c) : ∀ b ∈ o.blocks r ids n, s.IsTyped b := by
  obtain ⟨hhat, hitems⟩ := forall_lines.1 h
  obtain ⟨hbefore, hrest⟩ := List.forall_mem_append.1 hget
  obtain ⟨-, hgetItems⟩ := List.forall_mem_cons.1 hrest
  have htyped := Reader.isTyped_trigger o.isTrigger hhat
  generalize hshape : Shape.hat = shape at htyped
  cases htyped with
  | apply known fill =>
    refine forall_blocks Item.grants_isTyped h hget ((r.phrase o.hat).arguments.isTyped_blocks _ _ fill hbefore)
      ⟨fun _ => ⟨(r.phrase o.hat).op, Vocabulary.get?_of_mem _ known, rfl, Arguments.fieldFor_fields _ _ fill, ?_⟩,
        fun id hid => Item.hasStacked_of_first hitems hgetItems hid⟩
    exact ⟨_, [], (List.append_nil _).symm,
      (r.phrase o.hat).arguments.holdsFor_inputs (ids n) _ _ fill hbefore, List.nil_sublist _,
      fun input hinput => nomatch hinput⟩

end Outline

end BlockScript
