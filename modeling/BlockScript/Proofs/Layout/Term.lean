import BlockScript.Builder.Emit
import BlockScript.Proofs.Graph.Forest

/-!
# The blocks of a term

Where the ids of a term begin decides all its blocks: a term at place `n` of an id source takes the `size` ids from
there on, the first of them for its own block.  `Term.blocks` gives the blocks in the order in which they are
stored.

* `Term.ids_perm`: the ids of the blocks are the ids that the term takes;
* `Arguments.forall_blocks`: what operations and shadows grant to their own blocks holds of all blocks;
* `Term.forest`: the blocks of a complete term form a tree.
-/

namespace BlockScript

/-- The ids that are drawn from place `n` on, `count` of them. -/
def IdSource.span (ids : IdSource) (n count : Nat) : List BlockId :=
  (List.range' n count).map ids

theorem IdSource.span_add (ids : IdSource) (n k l : Nat) :
    ids.span n (k + l) = ids.span n k ++ ids.span (n + k) l := by
  rw [span, span, span, ← List.map_append, List.range'_append_1]

theorem IdSource.length_span (ids : IdSource) (n count : Nat) : (ids.span n count).length = count := by
  rw [span, List.length_map, List.length_range']

theorem IdSource.span_succ (ids : IdSource) (n k : Nat) : ids.span n (k + 1) = ids n :: ids.span (n + 1) k := by
  rw [span, List.range'_succ]
  rfl

mutual

/-- The number of blocks of a term. -/
def Term.size : Term → Nat
  | .apply _ arguments => arguments.size + 1
  | .noted _ term => term.size
  | .unreadable _ => 0

/-- The number of blocks of an argument. -/
def Argument.size : Argument → Nat
  | .reference _ => 0
  | .shadow _ _ => 1
  | .nested _ term => term.size
  | .raw _ => 0
  | .unreadable _ => 0

/-- The number of blocks of some arguments. -/
def Arguments.size : Arguments → Nat
  | .done => 0
  | .input _ value rest => value.size + rest.size
  | .field _ _ rest => rest.size

end

/-- The field that holds a value. -/
def FieldValue.inSlot (slot : String) : FieldValue → Field
  | .plain value => ⟨slot, value, none⟩
  | .variableName _ (some entry) => ⟨slot, entry.name, some entry.id⟩
  | .variableName name none => ⟨slot, String.ofList name, none⟩

/-- The input that holds an argument at place `n`; what could not be read has none. -/
def Argument.input? (ids : IdSource) (n : Nat) (slot : String) : Argument → Option Input
  | .reference entry => some (.reference slot entry.id entry.name entry.kind)
  | .shadow s _ => some (.block slot s.kind (ids n))
  | .nested kind _ => some (.block slot kind (ids n))
  | .raw value => some (.raw slot value)
  | .unreadable _ => none

namespace Arguments

/-- The inputs that hold the arguments at place `n`. -/
def inputs (ids : IdSource) (n : Nat) : Arguments → List Input
  | .done => []
  | .input slot value rest => (value.input? ids n slot).toList ++ inputs ids (n + value.size) rest
  | .field _ _ rest => inputs ids n rest

/-- The fields among the arguments. -/
def fields : Arguments → List Field
  | .done => []
  | .input _ _ rest => fields rest
  | .field slot value rest => value.inSlot slot :: fields rest

/-- The slots of the inputs among the arguments. -/
def inputNames : Arguments → List String
  | .done => []
  | .input slot _ rest => slot :: inputNames rest
  | .field _ _ rest => inputNames rest

/-- The slots of the fields among the arguments. -/
def fieldNames : Arguments → List String
  | .done => []
  | .input _ _ rest => fieldNames rest
  | .field slot _ rest => slot :: fieldNames rest

end Arguments

mutual

/-- The blocks of a term at place `n` below the block `owner`. -/
def Term.blocks (ids : IdSource) (n : Nat) (owner : Option BlockId) : Term → List Block
  | .apply op arguments =>
    arguments.blocks ids (n + 1) (ids n) ++
      [Build.blockOf op (ids n) (arguments.inputs ids (n + 1)) arguments.fields owner]
  | .noted _ term => term.blocks ids n owner
  | .unreadable _ => []

/-- The blocks of an argument at place `n` of the block `owner`. -/
def Argument.blocks (ids : IdSource) (n : Nat) (owner : BlockId) : Argument → List Block
  | .reference _ => []
  | .shadow shadow value => [Build.shadowBlock shadow value (ids n) owner]
  | .nested _ term => term.blocks ids n (some owner)
  | .raw _ => []
  | .unreadable _ => []

/-- The blocks of some arguments at place `n` of the block `owner`. -/
def Arguments.blocks (ids : IdSource) (n : Nat) (owner : BlockId) : Arguments → List Block
  | .done => []
  | .input _ value rest => value.blocks ids n owner ++ rest.blocks ids (n + value.size) owner
  | .field _ _ rest => rest.blocks ids n owner

end

/-- Whether inputs and fields of the given names fill all slots of an operation. -/
def Operation.isFilled (op : Operation) (inputNames fieldNames : List String) : Bool :=
  op.inputSlots.all (inputNames.contains ·.name) && op.fieldSlots.all (fieldNames.contains ·.name)

mutual

/-- Whether all parts of a term could be read and all slots are filled. -/
def Term.isComplete : Term → Bool
  | .apply op arguments => arguments.isComplete && op.isFilled arguments.inputNames arguments.fieldNames
  | .noted _ term => term.isComplete
  | .unreadable _ => false

/-- Whether all parts of an argument could be read and all slots are filled. -/
def Argument.isComplete : Argument → Bool
  | .reference _ => true
  | .shadow _ _ => true
  | .nested _ term => term.isComplete
  | .raw _ => true
  | .unreadable _ => false

/-- Whether all parts of some arguments could be read and all slots are filled. -/
def Arguments.isComplete : Arguments → Bool
  | .done => true
  | .input _ value rest => value.isComplete && rest.isComplete
  | .field _ _ rest => rest.isComplete

end

/-! ### Ids -/

mutual

/-- The ids of the blocks of a term are the ids that it takes. -/
theorem Term.ids_perm (ids : IdSource) (n : Nat) (owner : Option BlockId) :
    (t : Term) → ((t.blocks ids n owner).map Block.id).Perm (ids.span n t.size)
  | .apply op arguments => by
    rw [Term.blocks, Term.size, List.map_append, IdSource.span_succ]
    exact (List.perm_append_singleton _ _).trans ((arguments.ids_perm ids (n + 1) (ids n)).cons _)
  | .noted _ term => by
    rw [Term.blocks, Term.size]
    exact term.ids_perm ids n owner
  | .unreadable _ => List.Perm.refl _

theorem Argument.ids_perm (ids : IdSource) (n : Nat) (owner : BlockId) :
    (v : Argument) → ((v.blocks ids n owner).map Block.id).Perm (ids.span n v.size)
  | .reference _ => List.Perm.refl _
  | .shadow _ _ => List.Perm.refl _
  | .nested _ term => by
    rw [Argument.blocks, Argument.size]
    exact term.ids_perm ids n (some owner)
  | .raw _ => List.Perm.refl _
  | .unreadable _ => List.Perm.refl _

theorem Arguments.ids_perm (ids : IdSource) (n : Nat) (owner : BlockId) :
    (a : Arguments) → ((a.blocks ids n owner).map Block.id).Perm (ids.span n a.size)
  | .done => List.Perm.refl _
  | .input _ value rest => by
    rw [Arguments.blocks, Arguments.size, List.map_append, IdSource.span_add]
    exact (value.ids_perm ids n owner).append (rest.ids_perm ids (n + value.size) owner)
  | .field _ _ rest => by
    rw [Arguments.blocks, Arguments.size]
    exact rest.ids_perm ids n owner

end

theorem Term.length_blocks (ids : IdSource) (n : Nat) (owner : Option BlockId) (t : Term) :
    (t.blocks ids n owner).length = t.size := by
  rw [← List.length_map (f := Block.id), (t.ids_perm ids n owner).length_eq, IdSource.length_span]

theorem Argument.length_blocks (ids : IdSource) (n : Nat) (owner : BlockId) (v : Argument) :
    (v.blocks ids n owner).length = v.size := by
  rw [← List.length_map (f := Block.id), (v.ids_perm ids n owner).length_eq, IdSource.length_span]

/-! ### What holds of all blocks -/

/-- Terms with `T`, arguments with `V` and lists of arguments with `A` have parts with them, and grant `P` to the blocks
of operations and of shadows.  `Q` is known of the blocks below that of an operation. -/
structure Term.Grants (ids : IdSource) (T : Term → Prop) (V : Argument → Prop) (A : Arguments → Prop)
    (Q P : Block → Prop) : Prop where
  apply : ∀ {op : Operation} {arguments : Arguments}, T (.apply op arguments) → A arguments
  noted : ∀ {event : Event} {term : Term}, T (.noted event term) → T term
  nested : ∀ {kind : InputKind} {term : Term}, V (.nested kind term) → T term
  input : ∀ {slot : String} {value : Argument} {rest : Arguments}, A (.input slot value rest) → V value ∧ A rest
  field : ∀ {slot : String} {value : FieldValue} {rest : Arguments}, A (.field slot value rest) → A rest
  operation : ∀ {op : Operation} {arguments : Arguments} {n : Nat} {owner : Option BlockId},
    T (.apply op arguments) → (∀ c ∈ arguments.blocks ids (n + 1) (ids n), Q c) →
      P (Build.blockOf op (ids n) (arguments.inputs ids (n + 1)) arguments.fields owner)
  shadow : ∀ {shadow : Shadow} {value : String} {n : Nat} {owner : BlockId}, V (.shadow shadow value) →
    P (Build.shadowBlock shadow value (ids n) owner)

section Grants

variable {ids : IdSource} {T : Term → Prop} {V : Argument → Prop} {A : Arguments → Prop} {Q P : Block → Prop}

mutual

theorem Term.forall_blocks (h : Term.Grants ids T V A Q P) (n : Nat) (owner : Option BlockId) : (t : Term) → T t →
    (∀ c ∈ t.blocks ids n owner, Q c) → ∀ c ∈ t.blocks ids n owner, P c
  | .apply op arguments, ht, hblocks => by
    rw [Term.blocks] at hblocks ⊢
    obtain ⟨harguments, -⟩ := List.forall_mem_append.1 hblocks
    refine List.forall_mem_append.2 ⟨arguments.forall_blocks h (n + 1) (ids n) (h.apply ht) harguments, ?_⟩
    exact List.forall_mem_singleton.2 (h.operation ht harguments)
  | .noted _ term, ht, hblocks => by
    rw [Term.blocks] at hblocks ⊢
    exact term.forall_blocks h n owner (h.noted ht) hblocks
  | .unreadable _, _, _ => fun c hc => nomatch hc

theorem Argument.forall_blocks (h : Term.Grants ids T V A Q P) (n : Nat) (owner : BlockId) : (v : Argument) → V v →
    (∀ c ∈ v.blocks ids n owner, Q c) → ∀ c ∈ v.blocks ids n owner, P c
  | .reference _, _, _ => fun c hc => nomatch hc
  | .shadow _ _, hv, _ => List.forall_mem_singleton.2 (h.shadow hv)
  | .nested _ term, hv, hblocks => by
    rw [Argument.blocks] at hblocks ⊢
    exact term.forall_blocks h n (some owner) (h.nested hv) hblocks
  | .raw _, _, _ => fun c hc => nomatch hc
  | .unreadable _, _, _ => fun c hc => nomatch hc

/-- What operations and shadows grant to their own blocks holds of all blocks of some arguments. -/
theorem Arguments.forall_blocks (h : Term.Grants ids T V A Q P) (n : Nat) (owner : BlockId) : (a : Arguments) → A a →
    (∀ c ∈ a.blocks ids n owner, Q c) → ∀ c ∈ a.blocks ids n owner, P c
  | .done, _, _ => fun c hc => nomatch hc
  | .input _ value rest, ha, hblocks => by
    rw [Arguments.blocks] at hblocks ⊢
    obtain ⟨hvalue, hrest⟩ := List.forall_mem_append.1 hblocks
    exact List.forall_mem_append.2 ⟨value.forall_blocks h n owner (h.input ha).1 hvalue,
      rest.forall_blocks h (n + value.size) owner (h.input ha).2 hrest⟩
  | .field _ _ rest, ha, hblocks => by
    rw [Arguments.blocks] at hblocks ⊢
    exact rest.forall_blocks h n owner (h.field ha) hblocks

end

end Grants

/-! ### Slots -/

theorem Arguments.map_slot_inputs (ids : IdSource) : (a : Arguments) → (n : Nat) → a.isComplete = true →
    (a.inputs ids n).map Input.slot = a.inputNames
  | .done, _, _ => rfl
  | .input slot value rest, n, h => by
    rw [Arguments.isComplete, Bool.and_eq_true] at h
    rw [Arguments.inputs, Arguments.inputNames, List.map_append, rest.map_slot_inputs ids _ h.2]
    cases value with
    | unreadable fault => simp [Argument.isComplete] at h
    | _ => rfl
  | .field _ _ rest, n, h => by
    rw [Arguments.inputs, Arguments.inputNames]
    exact rest.map_slot_inputs ids n (by rwa [Arguments.isComplete] at h)

theorem Arguments.map_slot_fields : (a : Arguments) → a.fields.map Field.slot = a.fieldNames
  | .done => rfl
  | .input _ _ rest => rest.map_slot_fields
  | .field slot value rest => by
    rw [Arguments.fields, Arguments.fieldNames, List.map_cons, rest.map_slot_fields]
    match value with
    | .plain _ => rfl
    | .variableName _ (some _) => rfl
    | .variableName _ none => rfl

/-! ### Edges -/

theorem Block.targets_eq (b : Block) : b.targets = b.nested ++ b.next.toList := by
  unfold Block.targets Block.edges Block.nested
  rw [List.map_append]
  congr 1
  · rw [List.map_filterMap]
    congr 1
    funext input
    cases input.target? <;> rfl
  · cases b.next <;> rfl

theorem Block.targets_blockOf (op : Operation) (id : BlockId) (inputs : List Input) (fields : List Field)
    (parent : Option BlockId) :
    (Build.blockOf op id inputs fields parent).targets = inputs.filterMap Input.target? := by
  rw [Block.targets_eq]
  exact List.append_nil _

mutual

/-- The blocks of a complete term form a tree. -/
theorem Term.forest (ids : IdSource) (n : Nat) (owner : Option BlockId) :
    (t : Term) → t.isComplete = true → Forest owner [ids n] (t.blocks ids n owner)
  | .apply op arguments, h => by
    rw [Term.isComplete, Bool.and_eq_true] at h
    rw [Term.blocks]
    -- the root is stored behind the blocks below it
    refine Forest.perm (List.perm_append_singleton _ _).symm (Forest.node (b := Build.blockOf ..) ?_ ?_)
    · intro id hid
      cases hid
    · rw [Block.targets_blockOf]
      exact arguments.forest ids (n + 1) (ids n) h.1
  | .noted _ term, h => by
    rw [Term.blocks]
    exact term.forest ids n owner (by rwa [Term.isComplete] at h)
  | .unreadable _, h => by simp [Term.isComplete] at h

theorem Argument.forest (ids : IdSource) (n : Nat) (owner : BlockId) (slot : String) :
    (v : Argument) → v.isComplete = true →
      Forest (some owner) ((v.input? ids n slot).toList.filterMap Input.target?) (v.blocks ids n owner)
  | .reference _, _ => Forest.nil _
  | .shadow shadow value, _ => by
    refine Forest.node (b := Build.shadowBlock shadow value (ids n) owner) ?_ (Forest.nil _)
    intro id hid
    cases hid
  | .nested _ term, h => by
    rw [Argument.blocks]
    exact term.forest ids n (some owner) (by rwa [Argument.isComplete] at h)
  | .raw _, _ => Forest.nil _
  | .unreadable _, h => by simp [Argument.isComplete] at h

theorem Arguments.forest (ids : IdSource) (n : Nat) (owner : BlockId) :
    (a : Arguments) → a.isComplete = true →
      Forest (some owner) ((a.inputs ids n).filterMap Input.target?) (a.blocks ids n owner)
  | .done, _ => Forest.nil _
  | .input slot value rest, h => by
    rw [Arguments.isComplete, Bool.and_eq_true] at h
    rw [Arguments.inputs, Arguments.blocks, List.filterMap_append]
    exact (value.forest ids n owner slot h.1).append (rest.forest ids (n + value.size) owner h.2)
  | .field _ _ rest, h => by
    rw [Arguments.inputs, Arguments.blocks]
    exact rest.forest ids n owner (by rwa [Arguments.isComplete] at h)

end

end BlockScript
