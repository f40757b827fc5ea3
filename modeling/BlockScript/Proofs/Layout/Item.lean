import BlockScript.Proofs.Layout.Phrase

/-!
# The blocks of an item

An item at place `n` of an id source takes the `size` ids from there on, the first of them for the block of its own.
The blocks stand in the order in which they are stored: those of the arguments, that of the item, and those of its
bodies.  In a body that is closed the items are chained: each has the one in front of it as its parent and the one
behind it as its next block.

* `Item.ids_perm`, `Item.chained_ids_perm`: the ids of the blocks are the ids that the items take;
* `Item.forest_chained`: the blocks of chained items form a tree;
* `Item.forall_chained`: what each item grants to the blocks that are its own holds of all blocks.
-/

namespace BlockScript

/-- Whether blocks of a shape stand above and below each other. -/
def Shape.isStacked : Shape → Bool
  | command => true
  | container => true
  | _ => false

theorem Shape.isStacked_of_isOperand {shape : Shape} (h : shape.isOperand = true) : shape.isStacked = false := by
  cases shape with
  | reporter => rfl
  | boolean => rfl
  | _ => cases h

namespace Block

/-- What stands in a slot or in a body is no hat. -/
theorem isTop_eq_false {b : Block} (h : b.shape.isOperand = true ∨ b.shape.isStacked = true) : b.isTop = false := by
  unfold Block.isTop
  rw [decide_eq_false_iff_not]
  intro hhat
  rw [hhat] at h
  rcases h with h | h <;> cases h

/-- The block with the first block of a body in a slot, if the body has blocks. -/
def withBody (slot : String) (first? : Option BlockId) (b : Block) : Block :=
  match first? with
  | none => b
  | some first => b.putInput (.block slot .substack first)

/-- The block with a parent and a next block. -/
def placed (parent next : Option BlockId) (b : Block) : Block :=
  { b with parent := parent, next := next }

theorem placed_self {parent next : Option BlockId} {b : Block} (hparent : b.parent = parent)
    (hnext : b.next = next) : b.placed parent next = b := by
  subst hparent hnext
  rfl

theorem id_withBody (slot : String) (first? : Option BlockId) (b : Block) : (b.withBody slot first?).id = b.id := by
  cases first? <;> rfl

theorem shape_withBody (slot : String) (first? : Option BlockId) (b : Block) :
    (b.withBody slot first?).shape = b.shape := by
  cases first? <;> rfl

theorem shadow_withBody (slot : String) (first? : Option BlockId) (b : Block) :
    (b.withBody slot first?).shadow = b.shadow := by
  cases first? <;> rfl

theorem parent_withBody (slot : String) (first? : Option BlockId) (b : Block) :
    (b.withBody slot first?).parent = b.parent := by
  cases first? <;> rfl

theorem next_withBody (slot : String) (first? : Option BlockId) (b : Block) :
    (b.withBody slot first?).next = b.next := by
  cases first? <;> rfl

theorem opcode_withBody (slot : String) (first? : Option BlockId) (b : Block) :
    (b.withBody slot first?).opcode = b.opcode := by
  cases first? <;> rfl

/-- A body comes behind the other inputs. -/
theorem inputs_withBody {slot : String} {first? : Option BlockId} {b : Block}
    (h : slot ∉ b.inputs.map Input.slot) :
    (b.withBody slot first?).inputs = b.inputs ++ first?.toList.map (Input.block slot .substack) := by
  cases first? with
  | none => exact (List.append_nil _).symm
  | some first => exact Keyed.put_eq_append Input.slot h

end Block

namespace Phrase

/-- The blocks of the arguments of a phrase at place `n`. -/
def before (ids : IdSource) (n : Nat) (p : Phrase) : List Block :=
  p.arguments.blocks ids (n + 1) (ids n)

/-- The block of a phrase at place `n` that stands alone. -/
def block (ids : IdSource) (n : Nat) (p : Phrase) : Block :=
  Build.blockOf p.op (ids n) (p.arguments.inputs ids (n + 1)) p.arguments.fields none

theorem blocks_term (ids : IdSource) (n : Nat) (p : Phrase) :
    p.term.blocks ids n none = p.before ids n ++ [p.block ids n] :=
  rfl

end Phrase

namespace Item

variable (r : Reader) (ids : IdSource)

/-- The line that begins the item. -/
def opener : Item → Line
  | statement line _ => line
  | enclosed opener _ _ _ _ => opener
  | forked opener _ _ _ _ _ _ _ => opener

mutual

/-- The number of blocks of an item. -/
def size : Item → Nat
  | .statement line _ => (r.phrase line).size
  | .enclosed opener _ body _ _ => (r.phrase opener).size + sizes body
  | .forked opener _ body _ _ alternative _ _ => (r.phrase opener).size + (sizes body + sizes alternative)

/-- The number of blocks of some items. -/
def sizes : List Item → Nat
  | [] => 0
  | item :: rest => item.size + sizes rest

end

/-- The id of the first of some items at place `n`, if there is one. -/
def first? (n : Nat) (items : List Item) : Option BlockId :=
  items.head?.map fun _ => ids n

/-- The ids of the blocks of some items at place `n`. -/
def heads (n : Nat) : List Item → List BlockId
  | [] => []
  | item :: rest => ids n :: heads (n + item.size r) rest

/-- The block of an item at place `n` that stands alone. -/
def block (n : Nat) : Item → Block
  | statement line _ => (r.phrase line).block ids n
  | enclosed opener _ body _ _ =>
    ((r.phrase opener).block ids n).withBody Script.firstBody (first? ids (n + (r.phrase opener).size) body)
  | forked opener _ body _ _ alternative _ _ =>
    let first := n + (r.phrase opener).size
    Block.withBody Script.secondBody (first? ids (first + sizes r body) alternative)
      { ((r.phrase opener).block ids n).withBody Script.firstBody (first? ids first body) with
        opcode := Operation.ifElse.opcode }

mutual

/-- The blocks in the bodies of an item at place `n`. -/
def inside (n : Nat) : Item → List Block
  | .statement _ _ => []
  | .enclosed opener _ body _ _ => chained (n + (r.phrase opener).size) (some (ids n)) body
  | .forked opener _ body _ _ alternative _ _ =>
    chained (n + (r.phrase opener).size) (some (ids n)) body ++
      chained (n + (r.phrase opener).size + sizes r body) (some (ids n)) alternative

/-- The blocks of items at place `n` that follow each other, the first of them below `parent`. -/
def chained (n : Nat) (parent : Option BlockId) : List Item → List Block
  | [] => []
  | item :: rest =>
    ((r.phrase item.opener).before ids n ++
        (item.block r ids n).placed parent (first? ids (n + item.size r) rest) :: item.inside n) ++
      chained (n + item.size r) (some (ids n)) rest

end

/-- The blocks of an item at place `n`. -/
def blocks (n : Nat) (parent next : Option BlockId) (item : Item) : List Block :=
  (r.phrase item.opener).before ids n ++ (item.block r ids n).placed parent next :: item.inside r ids n

variable {r ids}

theorem chained_cons (n : Nat) (parent : Option BlockId) (item : Item) (rest : List Item) :
    chained r ids n parent (item :: rest) =
      item.blocks r ids n parent (first? ids (n + item.size r) rest) ++
        chained r ids (n + item.size r) (some (ids n)) rest := by
  rw [chained, blocks]

theorem size_pos (item : Item) : 0 < item.size r := by
  cases item <;> rw [size, Phrase.size] <;> omega

theorem sizes_cons (item : Item) (rest : List Item) : sizes r (item :: rest) = item.size r + sizes r rest := by
  rw [sizes]

theorem sizes_append (items items' : List Item) : sizes r (items ++ items') = sizes r items + sizes r items' := by
  induction items with
  | nil => exact (Nat.zero_add _).symm
  | cons item items ih => rw [List.cons_append, sizes, ih, sizes, Nat.add_assoc]

theorem heads_append (n : Nat) (items items' : List Item) :
    heads r ids n (items ++ items') = heads r ids n items ++ heads r ids (n + sizes r items) items' := by
  induction items generalizing n with
  | nil => rfl
  | cons item items ih => rw [List.cons_append, heads, ih, heads, sizes, Nat.add_assoc, List.cons_append]

/-- The blocks of items have ids in the order of the items. -/
theorem heads_sublist_span (n : Nat) (items : List Item) :
    (heads r ids n items).Sublist (ids.span n (sizes r items)) := by
  induction items generalizing n with
  | nil => exact List.Sublist.refl _
  | cons item rest ih =>
    obtain ⟨k, hk⟩ := Nat.exists_eq_add_of_lt (item.size_pos (r := r))
    rw [Nat.zero_add] at hk
    have hrest := ih (n + item.size r)
    rw [heads, sizes_cons, IdSource.span_add, hk, IdSource.span_succ, ← hk]
    exact (hrest.trans (List.sublist_append_right _ _)).cons_cons _

theorem id_block (n : Nat) (item : Item) : (item.block r ids n).id = ids n := by
  cases item with
  | statement => rfl
  | enclosed => rw [block, Block.id_withBody]; rfl
  | forked =>
    rw [block, Block.id_withBody]
    exact Block.id_withBody _ _ _

theorem shadow_block (n : Nat) (item : Item) : (item.block r ids n).shadow = false := by
  cases item with
  | statement => rfl
  | enclosed => rw [block, Block.shadow_withBody]; rfl
  | forked =>
    rw [block, Block.shadow_withBody]
    exact Block.shadow_withBody _ _ _

theorem shape_block (n : Nat) (item : Item) : (item.block r ids n).shape = (r.phrase item.opener).op.shape := by
  cases item with
  | statement => rfl
  | enclosed => rw [block, Block.shape_withBody]; rfl
  | forked =>
    rw [block, Block.shape_withBody]
    exact Block.shape_withBody _ _ _

theorem fields_block (n : Nat) (item : Item) :
    (item.block r ids n).fields = ((r.phrase item.opener).block ids n).fields := by
  have hwith (slot : String) (first? : Option BlockId) (b : Block) : (b.withBody slot first?).fields = b.fields := by
    cases first? <;> rfl
  cases item with
  | statement => rfl
  | enclosed => exact hwith _ _ _
  | forked => exact (hwith _ _ _).trans (hwith _ _ _)

/-! ### Ids -/

private theorem ids_perm_of_inside (n : Nat) (parent next : Option BlockId) (item : Item) {k : Nat}
    (h : ((item.inside r ids n).map Block.id).Perm (ids.span (n + (r.phrase item.opener).size) k)) :
    ((item.blocks r ids n parent next).map Block.id).Perm
      (ids.span n ((r.phrase item.opener).size + k)) := by
  have hhead : ((item.block r ids n).placed parent next).id = ids n := id_block n item
  rw [blocks, IdSource.span_add, Phrase.size, IdSource.span_succ, List.map_append, List.map_cons, hhead]
  refine List.perm_middle.trans ?_
  rw [List.cons_append]
  exact (((r.phrase item.opener).arguments.ids_perm ids (n + 1) (ids n)).append h).cons _

mutual

/-- The ids of the blocks of an item are the ids that it takes. -/
theorem ids_perm (n : Nat) (parent next : Option BlockId) :
    (item : Item) → ((item.blocks r ids n parent next).map Block.id).Perm (ids.span n (item.size r))
  | .statement line isStatement => by
    rw [size]
    exact ids_perm_of_inside n parent next (.statement line isStatement) (k := 0) (List.Perm.refl _)
  | .enclosed opener opens body closer closes => by
    rw [size]
    refine ids_perm_of_inside n parent next (.enclosed opener opens body closer closes) ?_
    rw [inside]
    exact chained_ids_perm _ _ body
  | .forked opener isIf body middle isElse alternative closer closes => by
    rw [size]
    refine ids_perm_of_inside n parent next
      (.forked opener isIf body middle isElse alternative closer closes) ?_
    rw [inside, List.map_append, IdSource.span_add]
    exact (chained_ids_perm _ _ body).append (chained_ids_perm _ _ alternative)

theorem chained_ids_perm (n : Nat) (parent : Option BlockId) :
    (items : List Item) → ((chained r ids n parent items).map Block.id).Perm (ids.span n (sizes r items))
  | [] => List.Perm.refl _
  | item :: rest => by
    rw [chained_cons, sizes, List.map_append, IdSource.span_add]
    exact (item.ids_perm n _ _).append (chained_ids_perm _ _ rest)

end

/-! ### Readable items -/

theorem opener_mem_lines (item : Item) : item.opener ∈ item.lines := by
  cases item <;> simp [opener, lines]

/-- What a readable item says can stand above and below other blocks. -/
theorem fits_of_isReadable {item : Item} (h : ∀ line ∈ item.lines, r.isReadable line = true) :
    ∃ shape, (r.phrase item.opener).Fits shape ∧ shape.isStacked = true := by
  have hopener := h item.opener item.opener_mem_lines
  cases item with
  | statement line isStatement => exact ⟨.command, (Reader.fits_statement isStatement hopener).2, rfl⟩
  | enclosed opener opens => exact ⟨.container, (Reader.fits_opener opens hopener).2.1, rfl⟩
  | forked opener isIf =>
    have opens : opener.kind.opens = true := by rw [isIf]; rfl
    exact ⟨.container, (Reader.fits_opener opens hopener).2.1, rfl⟩

theorem isStacked_block {item : Item} (h : ∀ line ∈ item.lines, r.isReadable line = true) (n : Nat) :
    (item.block r ids n).shape.isStacked = true := by
  obtain ⟨shape, hfits, hshape⟩ := fits_of_isReadable h
  rw [shape_block, hfits.shape, hshape]

theorem isTop_block {item : Item} (h : ∀ line ∈ item.lines, r.isReadable line = true) (n : Nat) :
    (item.block r ids n).isTop = false :=
  Block.isTop_eq_false (.inr (isStacked_block h n))

/-! ### Edges -/

/-- The inputs that hold the first blocks of the bodies of an item at place `n`. -/
def bodyInputs (r : Reader) (ids : IdSource) (n : Nat) : Item → List Input
  | statement _ _ => []
  | enclosed opener _ body _ _ =>
    (first? ids (n + (r.phrase opener).size) body).toList.map (Input.block Script.firstBody .substack)
  | forked opener _ body _ _ alternative _ _ =>
    (first? ids (n + (r.phrase opener).size) body).toList.map (Input.block Script.firstBody .substack) ++
      (first? ids (n + (r.phrase opener).size + sizes r body) alternative).toList.map
        (Input.block Script.secondBody .substack)

/-- The ids of the first blocks of the bodies of an item at place `n`. -/
def bodies (r : Reader) (ids : IdSource) (n : Nat) : Item → List BlockId
  | statement _ _ => []
  | enclosed opener _ body _ _ => (first? ids (n + (r.phrase opener).size) body).toList
  | forked opener _ body _ _ alternative _ _ =>
    (first? ids (n + (r.phrase opener).size) body).toList ++
      (first? ids (n + (r.phrase opener).size + sizes r body) alternative).toList

private theorem slots_block_opener {opener : Line} (opens : opener.kind.opens = true)
    (h : r.isReadable opener = true) (n : Nat) :
    Script.firstBody ∉ ((r.phrase opener).block ids n).inputs.map Input.slot ∧
      Script.secondBody ∉ ((r.phrase opener).block ids n).inputs.map Input.slot := by
  obtain ⟨-, hfits, hbodies⟩ := Reader.fits_opener opens h
  have hslots : ((r.phrase opener).block ids n).inputs.map Input.slot = (r.phrase opener).arguments.inputNames :=
    Arguments.map_slot_inputs _ _ _ hfits.arguments_complete
  rw [hslots]
  exact hbodies

/-- The block of an item holds its arguments and then its bodies. -/
theorem inputs_block {item : Item} (h : ∀ line ∈ item.lines, r.isReadable line = true) (n : Nat) :
    (item.block r ids n).inputs =
      (r.phrase item.opener).arguments.inputs ids (n + 1) ++ item.bodyInputs r ids n := by
  have hopener := h item.opener item.opener_mem_lines
  cases item with
  | statement line isStatement => exact (List.append_nil _).symm
  | enclosed opener opens body closer closes =>
    rw [block, Block.inputs_withBody (slots_block_opener opens hopener n).1]
    rfl
  | forked opener isIf body middle isElse alternative closer closes =>
    have opens : opener.kind.opens = true := by rw [isIf]; rfl
    obtain ⟨hfirst, hsecond⟩ := @slots_block_opener r ids _ opens hopener n
    rw [block, Block.inputs_withBody]
    · show (Block.withBody _ _ _).inputs ++ _ = _
      rw [Block.inputs_withBody hfirst, bodyInputs, List.append_assoc]
      rfl
    · rw [Block.inputs_withBody hfirst, List.map_append, List.mem_append]
      rintro (hmem | hmem)
      · exact hsecond hmem
      · rw [List.map_map] at hmem
        obtain ⟨_, -, he⟩ := List.mem_map.1 hmem
        have hne : Script.firstBody ≠ Script.secondBody := by decide
        exact hne he

private theorem filterMap_bodyInputs (n : Nat) (item : Item) :
    (item.bodyInputs r ids n).filterMap Input.target? = item.bodies r ids n := by
  have hbody : ∀ (slot : String) (first? : Option BlockId),
      (first?.toList.map (Input.block slot .substack)).filterMap Input.target? = first?.toList := by
    intro slot first?
    cases first? <;> rfl
  cases item with
  | statement => rfl
  | enclosed => rw [bodyInputs, hbody, bodies]
  | forked => rw [bodyInputs, List.filterMap_append, hbody, hbody, bodies]

theorem nested_block {item : Item} (h : ∀ line ∈ item.lines, r.isReadable line = true) (n : Nat) :
    (item.block r ids n).nested =
      ((r.phrase item.opener).arguments.inputs ids (n + 1)).filterMap Input.target? ++ item.bodies r ids n := by
  rw [Block.nested, inputs_block h, List.filterMap_append, filterMap_bodyInputs]

theorem targets_placed (n : Nat) (parent next : Option BlockId) (item : Item) :
    ((item.block r ids n).placed parent next).targets = (item.block r ids n).nested ++ next.toList := by
  rw [Block.targets_eq]
  rfl

/-- The blocks of an item form a tree with the trees of its bodies and what follows it. -/
private theorem forest_of_inside {n : Nat} {parent next : Option BlockId} {item : Item} {follow : List Block}
    (h : ∀ line ∈ item.lines, r.isReadable line = true)
    (hinside : Forest (some (ids n)) (item.bodies r ids n) (item.inside r ids n))
    (hfollow : Forest (some (ids n)) next.toList follow)
    (hstack : ∀ id, next = some id → ∃ c ∈ follow, c.id = id ∧ c.shadow = false ∧ c.isTop = false) :
    Forest parent [ids n] (item.blocks r ids n parent next ++ follow) := by
  obtain ⟨shape, hfits, -⟩ := fits_of_isReadable h
  have harguments := (r.phrase item.opener).arguments.forest ids (n + 1) (ids n) hfits.arguments_complete
  have hid : ((item.block r ids n).placed parent next).id = ids n := id_block n item
  -- the children of the item are its arguments, the first blocks of its bodies, and the next item
  have hbelow := ((harguments.append hinside).append hfollow)
  rw [← nested_block h, ← targets_placed n parent next item, ← hid] at hbelow
  have hnode := Forest.node (b := (item.block r ids n).placed parent next) ?_ hbelow
  · rw [hid] at hnode
    refine Forest.perm ?_ hnode
    rw [blocks, Phrase.before, ← hid, ← List.cons_append]
    exact List.Perm.append_right _ List.perm_middle.symm
  · intro id hnext
    obtain ⟨c, hc, hstacks⟩ := hstack id hnext
    exact ⟨shadow_block n item, c, List.mem_append_right _ hc, hstacks⟩

/-- The first of some chained items is a command or a container. -/
theorem exists_stacked_of_chained {n : Nat} {parent : Option BlockId} {items : List Item} {id : BlockId}
    (h : ∀ line ∈ allLines items, r.isReadable line = true) (hid : first? ids n items = some id) :
    ∃ c ∈ chained r ids n parent items, c.id = id ∧ c.shadow = false ∧ c.shape.isStacked = true := by
  cases items with
  | nil => cases hid
  | cons item rest =>
    obtain rfl : ids n = id := Option.some.inj hid
    refine ⟨(item.block r ids n).placed parent (first? ids (n + item.size r) rest), ?_, id_block n item,
      shadow_block n item, isStacked_block (forall_allLines_cons.1 h).1 n⟩
    rw [chained_cons, blocks]
    simp

/-- The first of some chained items can stand below another block. -/
theorem exists_first_of_chained {n : Nat} {parent : Option BlockId} {items : List Item} {id : BlockId}
    (h : ∀ line ∈ allLines items, r.isReadable line = true) (hid : first? ids n items = some id) :
    ∃ c ∈ chained r ids n parent items, c.id = id ∧ c.shadow = false ∧ c.isTop = false := by
  obtain ⟨c, hc, hcid, hshadow, hstacked⟩ := @exists_stacked_of_chained r ids n parent items id h hid
  exact ⟨c, hc, hcid, hshadow, Block.isTop_eq_false (.inr hstacked)⟩

mutual

theorem forest_inside (n : Nat) : (item : Item) → (∀ line ∈ item.lines, r.isReadable line = true) →
    Forest (some (ids n)) (item.bodies r ids n) (item.inside r ids n)
  | .statement line isStatement, _ => by
    rw [inside]
    exact Forest.nil _
  | .enclosed opener opens body closer closes, h => by
    rw [inside]
    exact forest_chained _ _ body (forall_of_enclosed h)
  | .forked opener isIf body middle isElse alternative closer closes, h => by
    rw [inside]
    obtain ⟨hbody, halternative⟩ := forall_of_forked h
    exact (forest_chained _ _ body hbody).append (forest_chained _ _ alternative halternative)

/-- The blocks of chained items form a tree. -/
theorem forest_chained (n : Nat) (parent : Option BlockId) : (items : List Item) →
    (∀ line ∈ allLines items, r.isReadable line = true) →
      Forest parent (first? ids n items).toList (chained r ids n parent items)
  | [], _ => Forest.nil _
  | item :: rest, h => by
    obtain ⟨hitem, hrest⟩ := forall_allLines_cons.1 h
    rw [chained_cons]
    exact forest_of_inside hitem (forest_inside n item hitem)
      (forest_chained (n + item.size r) (some (ids n)) rest hrest)
      fun id hid => exists_first_of_chained hrest hid

end

/-- The blocks of an item that stands alone form a tree. -/
theorem forest_blocks {n : Nat} {parent : Option BlockId} {item : Item}
    (h : ∀ line ∈ item.lines, r.isReadable line = true) :
    Forest parent [ids n] (item.blocks r ids n parent none) := by
  rw [← List.append_nil (item.blocks r ids n parent none)]
  exact forest_of_inside h (forest_inside n item h) (Forest.nil _) fun id hid => nomatch hid

/-! ### What holds of all blocks -/

/-- Each item grants `P` to the blocks of its arguments and to its own block, if `R` is known of the lines and `Q` of
the blocks of the item and of what is chained behind it. -/
structure Grants (r : Reader) (ids : IdSource) (R : Line → Prop) (Q P : Block → Prop) : Prop where
  before : ∀ {n : Nat} {parent : Option BlockId} {item : Item} {rest : List Item},
    (∀ line ∈ allLines (item :: rest), R line) → (∀ c ∈ chained r ids n parent (item :: rest), Q c) →
      ∀ c ∈ (r.phrase item.opener).before ids n, P c
  block : ∀ {n : Nat} {parent : Option BlockId} {item : Item} {rest : List Item},
    (∀ line ∈ allLines (item :: rest), R line) → (∀ c ∈ chained r ids n parent (item :: rest), Q c) →
      P ((item.block r ids n).placed parent (first? ids (n + item.size r) rest))

section Grants

variable {R : Line → Prop} {Q P : Block → Prop}

mutual

theorem forall_inside (h : Grants r ids R Q P) (n : Nat) : (item : Item) → (∀ line ∈ item.lines, R line) →
    (∀ c ∈ item.inside r ids n, Q c) → ∀ c ∈ item.inside r ids n, P c
  | .statement line isStatement, _, _, c, hc => by
    rw [inside] at hc
    cases hc
  | .enclosed opener opens body closer closes, hlines, hblocks, c, hc => by
    rw [inside] at hblocks hc
    exact forall_chained h _ _ body (forall_of_enclosed hlines) hblocks c hc
  | .forked opener isIf body middle isElse alternative closer closes, hlines, hblocks, c, hc => by
    rw [inside] at hblocks hc
    obtain ⟨hbody, halternative⟩ := forall_of_forked hlines
    obtain ⟨hblocksBody, hblocksAlternative⟩ := List.forall_mem_append.1 hblocks
    rcases List.mem_append.1 hc with hc | hc
    · exact forall_chained h _ _ body hbody hblocksBody c hc
    · exact forall_chained h _ _ alternative halternative hblocksAlternative c hc

/-- What each item grants to its own blocks holds of all blocks of chained items. -/
theorem forall_chained (h : Grants r ids R Q P) (n : Nat) (parent : Option BlockId) : (items : List Item) →
    (∀ line ∈ allLines items, R line) → (∀ c ∈ chained r ids n parent items, Q c) →
      ∀ c ∈ chained r ids n parent items, P c
  | [], _, _, c, hc => by cases hc
  | item :: rest, hlines, hblocks, c, hc => by
    have hbefore := h.before hlines hblocks
    have hblock := h.block hlines hblocks
    obtain ⟨hitem, hrest⟩ := forall_allLines_cons.1 hlines
    rw [chained_cons] at hblocks hc
    obtain ⟨hblocksItem, hblocksRest⟩ := List.forall_mem_append.1 hblocks
    obtain ⟨-, hblocksBelow⟩ := List.forall_mem_append.1 hblocksItem
    rcases List.mem_append.1 hc with hc | hc
    · rw [blocks, List.mem_append, List.mem_cons] at hc
      rcases hc with hc | rfl | hc
      · exact hbefore c hc
      · exact hblock
      · exact forall_inside h n item hitem (List.forall_mem_cons.1 hblocksBelow).2 c hc
    · exact forall_chained h _ _ rest hrest hblocksRest c hc

end

end Grants

private theorem grants_shapes : Grants r ids (fun line => r.isReadable line = true) (fun _ => True)
    fun c => c.shape.isOperand = true ∨ c.shape.isStacked = true where
  before h _ c hc := by
    obtain ⟨shape, hfits, -⟩ := fits_of_isReadable (forall_allLines_cons.1 h).1
    exact .inl ((r.phrase _).arguments.isOperand_blocks ids _ _ hfits.operands c hc)
  block h _ := .inr (isStacked_block (forall_allLines_cons.1 h).1 _)

/-- There is no hat below another block. -/
theorem shapes_chained (n : Nat) (parent : Option BlockId) (items : List Item)
    (h : ∀ line ∈ allLines items, r.isReadable line = true) :
    ∀ c ∈ chained r ids n parent items, c.shape.isOperand = true ∨ c.shape.isStacked = true :=
  forall_chained grants_shapes n parent items h fun _ _ => trivial

end Item

end BlockScript
