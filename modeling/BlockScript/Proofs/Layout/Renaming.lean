import BlockScript.Proofs.Layout.Draft

/-!
# Renaming ids

Where blocks are laid out, ids are only copied.  So blocks that are laid out with other ids are the same blocks with
their ids renamed (`Outline.scripts_rename`), if one renaming takes each id to the one that is drawn in its place
(`IdSource.Matches`).
-/

namespace BlockScript

/-- The input with its nested block renamed. -/
def Input.rename (ρ : BlockId → BlockId) : Input → Input
  | block slot kind target => block slot kind (ρ target)
  | reference slot id value kind => reference slot id value kind
  | raw slot value => raw slot value

/-- The block with its own id and all ids of other blocks renamed. -/
def Block.rename (ρ : BlockId → BlockId) (b : Block) : Block :=
  { b with
    id := ρ b.id
    inputs := b.inputs.map (Input.rename ρ)
    parent := b.parent.map ρ
    next := b.next.map ρ }

/-- The arena with its keys and its blocks renamed. -/
def Arena.rename (ρ : BlockId → BlockId) (arena : Arena) : Arena :=
  arena.map fun entry => (ρ entry.1, entry.2.rename ρ)

/-- The script with all ids of blocks renamed. -/
def Script.rename (ρ : BlockId → BlockId) (s : Script) : Script :=
  ⟨ρ s.top, s.blocks.rename ρ⟩

/-- The ids of `ids` from place `n` on, renamed, are those of `ids'` from place `n'` on. -/
def IdSource.Matches (ρ : BlockId → BlockId) (ids : IdSource) (n : Nat) (ids' : IdSource) (n' : Nat) : Prop :=
  ∀ i, ids' (n' + i) = ρ (ids (n + i))

/-- The renaming that takes each id of a source to the id of the same number of another one.  All other ids stay. -/
noncomputable def IdSource.renaming (ids ids' : IdSource) : BlockId → BlockId :=
  Function.extend ids ids' id

theorem IdSource.renaming_apply {ids : IdSource} (h : Function.Injective ids) (ids' : IdSource) (n : Nat) :
    ids.renaming ids' (ids n) = ids' n :=
  h.extend_apply ids' id n

variable {ρ : BlockId → BlockId} {ids ids' : IdSource} {n n' : Nat}

namespace IdSource.Matches

theorem first (h : Matches ρ ids n ids' n') : ids' n' = ρ (ids n) :=
  h 0

theorem add (h : Matches ρ ids n ids' n') (k : Nat) : Matches ρ ids (n + k) ids' (n' + k) := by
  intro i
  rw [Nat.add_assoc, Nat.add_assoc]
  exact h (k + i)

end IdSource.Matches

/-! ### Blocks -/

theorem Input.slot_rename (input : Input) : (input.rename ρ).slot = input.slot := by
  cases input <;> rfl

theorem Arena.rename_ofBlocks (blocks : List Block) :
    (ofBlocks blocks).rename ρ = ofBlocks (blocks.map (Block.rename ρ)) := by
  simp [ofBlocks, rename, Function.comp_def, Block.rename]

namespace Block

variable (b : Block)

theorem rename_placed (parent next : Option BlockId) :
    (b.placed parent next).rename ρ = (b.rename ρ).placed (parent.map ρ) (next.map ρ) :=
  rfl

theorem rename_putInput (input : Input) : (b.putInput input).rename ρ = (b.rename ρ).putInput (input.rename ρ) := by
  have hput : ∀ inputs : List Input, (Keyed.put Input.slot input inputs).map (Input.rename ρ) =
      Keyed.put Input.slot (input.rename ρ) (inputs.map (Input.rename ρ)) := by
    intro inputs
    induction inputs with
    | nil => rfl
    | cons other inputs ih =>
      simp only [Keyed.put, List.map_cons, Input.slot_rename, ← ih]
      split_ifs <;> rfl
  simp only [rename, putInput, hput]

theorem rename_withBody (slot : String) (first? : Option BlockId) :
    (b.withBody slot first?).rename ρ = (b.rename ρ).withBody slot (first?.map ρ) := by
  cases first? with
  | none => rfl
  | some first => exact b.rename_putInput _

end Block

/-! ### Terms -/

theorem Argument.input?_rename (h : IdSource.Matches ρ ids n ids' n') (slot : String) (v : Argument) :
    v.input? ids' n' slot = (v.input? ids n slot).map (Input.rename ρ) := by
  cases v with
  | shadow shadow value => exact congrArg (fun id => some (Input.block slot shadow.kind id)) h.first
  | nested kind term => exact congrArg (fun id => some (Input.block slot kind id)) h.first
  | _ => rfl

theorem Arguments.inputs_rename : (a : Arguments) → ∀ {n n' : Nat}, IdSource.Matches ρ ids n ids' n' →
    a.inputs ids' n' = (a.inputs ids n).map (Input.rename ρ)
  | .done, _, _, _ => rfl
  | .input _ value rest, n, _, h => by
    rw [Arguments.inputs, Arguments.inputs, List.map_append, value.input?_rename h, rest.inputs_rename (h.add _)]
    cases value.input? ids n _ <;> rfl
  | .field _ _ rest, _, _, h => rest.inputs_rename h

theorem Build.blockOf_rename (h : IdSource.Matches ρ ids n ids' n') (op : Operation) (arguments : Arguments)
    (owner : Option BlockId) :
    blockOf op (ids' n') (arguments.inputs ids' (n' + 1)) arguments.fields (owner.map ρ) =
      (blockOf op (ids n) (arguments.inputs ids (n + 1)) arguments.fields owner).rename ρ := by
  rw [h.first, arguments.inputs_rename (h.add 1)]
  rfl

mutual

/-- The blocks of a term with other ids. -/
theorem Term.blocks_rename : (t : Term) → ∀ {n n' : Nat}, IdSource.Matches ρ ids n ids' n' →
    ∀ owner : Option BlockId, t.blocks ids' n' (owner.map ρ) = (t.blocks ids n owner).map (Block.rename ρ)
  | .apply op arguments, _, _, h, owner => by
    rw [Term.blocks, Term.blocks, List.map_append, Build.blockOf_rename h, h.first,
      arguments.blocks_rename (h.add 1)]
    rfl
  | .noted _ term, _, _, h, owner => term.blocks_rename h owner
  | .unreadable _, _, _, _, _ => rfl

theorem Argument.blocks_rename : (v : Argument) → ∀ {n n' : Nat}, IdSource.Matches ρ ids n ids' n' →
    ∀ owner : BlockId, v.blocks ids' n' (ρ owner) = (v.blocks ids n owner).map (Block.rename ρ)
  | .reference _, _, _, _, _ => rfl
  | .shadow shadow value, _, _, h, _ => by
    rw [Argument.blocks, Argument.blocks, h.first]
    rfl
  | .nested _ term, _, _, h, owner => term.blocks_rename h (some owner)
  | .raw _, _, _, _, _ => rfl
  | .unreadable _, _, _, _, _ => rfl

theorem Arguments.blocks_rename : (a : Arguments) → ∀ {n n' : Nat}, IdSource.Matches ρ ids n ids' n' →
    ∀ owner : BlockId, a.blocks ids' n' (ρ owner) = (a.blocks ids n owner).map (Block.rename ρ)
  | .done, _, _, _, _ => rfl
  | .input _ value rest, _, _, h, owner => by
    rw [Arguments.blocks, Arguments.blocks, List.map_append, value.blocks_rename h, rest.blocks_rename (h.add _)]
  | .field _ _ rest, _, _, h, owner => rest.blocks_rename h owner

end

/-! ### Items and scripts -/

variable {r : Reader}

namespace Phrase

theorem before_rename (h : IdSource.Matches ρ ids n ids' n') (p : Phrase) :
    p.before ids' n' = (p.before ids n).map (Block.rename ρ) := by
  rw [before, before, h.first, p.arguments.blocks_rename (h.add 1)]

theorem block_rename (h : IdSource.Matches ρ ids n ids' n') (p : Phrase) :
    p.block ids' n' = (p.block ids n).rename ρ :=
  Build.blockOf_rename h p.op p.arguments none

end Phrase

namespace Item

theorem first?_rename (h : IdSource.Matches ρ ids n ids' n') (items : List Item) :
    first? ids' n' items = (first? ids n items).map ρ := by
  cases items with
  | nil => rfl
  | cons item items => exact congrArg some h.first

theorem block_rename (h : IdSource.Matches ρ ids n ids' n') (item : Item) :
    item.block r ids' n' = (item.block r ids n).rename ρ := by
  cases item with
  | statement line isStatement => exact Phrase.block_rename h _
  | enclosed opener opens body closer closes =>
    rw [block, block, Block.rename_withBody, Phrase.block_rename h, first?_rename (h.add _)]
  | forked opener isIf body middle isElse alternative closer closes =>
    dsimp only [block]
    rw [Block.rename_withBody, first?_rename ((h.add _).add _), Phrase.block_rename h, first?_rename (h.add _),
      ← Block.rename_withBody]
    rfl

mutual

theorem inside_rename : (item : Item) → ∀ {n n' : Nat}, IdSource.Matches ρ ids n ids' n' →
    item.inside r ids' n' = (item.inside r ids n).map (Block.rename ρ)
  | .statement _ _, _, _, _ => by rw [inside, inside, List.map_nil]
  | .enclosed opener _ body _ _, n, _, h => by
    rw [inside, inside, h.first]
    exact chained_rename body (h.add _) (some (ids n))
  | .forked opener _ body _ _ alternative _ _, n, _, h => by
    rw [inside, inside, List.map_append, h.first]
    exact congrArg₂ _ (chained_rename body (h.add _) (some (ids n)))
      (chained_rename alternative ((h.add _).add _) (some (ids n)))

/-- The blocks of chained items with other ids. -/
theorem chained_rename : (items : List Item) → ∀ {n n' : Nat}, IdSource.Matches ρ ids n ids' n' →
    ∀ parent : Option BlockId,
      chained r ids' n' (parent.map ρ) items = (chained r ids n parent items).map (Block.rename ρ)
  | [], _, _, _, _ => by rw [chained, chained, List.map_nil]
  | item :: rest, n, _, h, parent => by
    have hrest := chained_rename rest (h.add (item.size r)) (some (ids n))
    rw [chained, chained, List.map_append, List.map_append, List.map_cons, Block.rename_placed,
      Phrase.before_rename h, block_rename h, first?_rename (h.add _), inside_rename item h, h.first]
    exact congrArg _ hrest

end

end Item

namespace Outline

theorem script_rename (h : IdSource.Matches ρ ids n ids' n') (o : Outline) :
    o.script r ids' n' = (o.script r ids n).rename ρ := by
  have hchained := @Item.chained_rename _ _ _ r o.items _ _ (h.add (r.phrase o.hat).size) (some (ids n))
  rw [script, script, Script.rename, Arena.rename_ofBlocks, h.first, blocks, blocks, List.map_append, List.map_cons,
    Block.rename_placed, Phrase.before_rename h, Phrase.block_rename h, Item.first?_rename (h.add _), h.first,
    ← hchained]
  rfl

/-- Scripts that are laid out with other ids are the same scripts with their ids renamed. -/
theorem scripts_rename (h : IdSource.Matches ρ ids n ids' n') (outlines : List Outline) :
    scripts r ids' n' outlines = (scripts r ids n outlines).map (Script.rename ρ) := by
  induction outlines generalizing n n' with
  | nil => rfl
  | cons o outlines ih => rw [scripts, scripts, List.map_cons, script_rename h, ih (h.add _)]

end Outline

end BlockScript
