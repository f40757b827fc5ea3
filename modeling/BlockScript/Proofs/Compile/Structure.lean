import BlockScript.Proofs.Compile.Valid

/-!
# Compiled scripts show the lines of their source

`Script.Shows` says what it means that a script shows an outline: the blocks that follow the hat stand for its items,
the blocks in the bodies of a container for the items between its lines, and there are no other commands and
containers.  Every compiled script shows the script of the source that it comes from.
-/

namespace BlockScript

/-- The opcode of the containers with one body that lines of a kind open. -/
def LineKind.opcode : LineKind → Option String
  | forever => some "control_forever"
  | repeatTimes => some "control_repeat"
  | repeatUntil => some "control_repeat_until"
  | ifThen => some "control_if"
  | _ => none

namespace Script

mutual

/-- A block of a script stands for an item; `all` are the blocks for the item and for the items in it, in the order of
the source. -/
inductive ShowsItem (s : Script) : Item → Block → (all : List Block) → Prop where
  | statement {line : Line} {isStatement : line.kind = .statement} {b : Block} {op : Operation} {values : Bindings}
      (matched : Vocabulary.lookup [.command] line.text = some (op, values)) (opcode : b.opcode = op.opcode) :
      ShowsItem s (.statement line isStatement) b [b]
  | enclosed {opener : Line} {opens : opener.kind.opens = true} {body : List Item} {closer : Line}
      {closes : closer.kind = .close} {b : Block} {first all : List Block}
      (opcode : opener.kind.opcode = some b.opcode) (firstBody : s.substack b.id "SUBSTACK" = .ok first)
      (secondBody : s.substack b.id "SUBSTACK2" = .ok []) (items : ShowsItems s body first all) :
      ShowsItem s (.enclosed opener opens body closer closes) b (b :: all)
  | forked {opener : Line} {isIf : opener.kind = .ifThen} {body : List Item} {middle : Line}
      {isElse : middle.kind = .otherwise} {alternative : List Item} {closer : Line}
      {closes : closer.kind = .close} {b : Block} {first second all all' : List Block}
      (opcode : b.opcode = "control_if_else") (firstBody : s.substack b.id "SUBSTACK" = .ok first)
      (secondBody : s.substack b.id "SUBSTACK2" = .ok second) (items : ShowsItems s body first all)
      (others : ShowsItems s alternative second all') :
      ShowsItem s (.forked opener isIf body middle isElse alternative closer closes) b (b :: (all ++ all'))

/-- Blocks of a script stand for items, one for each. -/
inductive ShowsItems (s : Script) : List Item → (blocks all : List Block) → Prop where
  | nil : ShowsItems s [] [] []
  | cons {item : Item} {rest : List Item} {b : Block} {blocks all all' : List Block}
      (head : ShowsItem s item b all) (tail : ShowsItems s rest blocks all') :
      ShowsItems s (item :: rest) (b :: blocks) (all ++ all')

end

/-- A script shows an outline: its hat and the blocks below it stand for the lines, and every command and container
stands for one item. -/
def Shows (s : Script) (o : Outline) : Prop :=
  (∃ hat op values, s.topBlock = .ok hat ∧ Vocabulary.lookup [.hat] o.hat.text = some (op, values) ∧
    hat.opcode = op.opcode) ∧
  ∃ blocks all, s.body = .ok blocks ∧ ShowsItems s o.items blocks all ∧
    all = s.blocks.blocks.filter (·.shape.isStacked) ∧ (all.map Block.id).Nodup

end Script

variable {r : Reader} {ids : IdSource}

namespace Item

/-- The blocks of items at place `n` that follow each other, the first of them below `parent`. -/
def chain (r : Reader) (ids : IdSource) (n : Nat) (parent : Option BlockId) : List Item → List Block
  | [] => []
  | item :: rest =>
    (item.block r ids n).placed parent (first? ids (n + item.size r) rest) ::
      chain r ids (n + item.size r) (some (ids n)) rest

theorem chain_sublist_chained (n : Nat) (parent : Option BlockId) (items : List Item) :
    (chain r ids n parent items).Sublist (chained r ids n parent items) := by
  induction items generalizing n parent with
  | nil => exact List.Sublist.refl _
  | cons item rest ih =>
    rw [chain, chained_cons, blocks]
    have hhead : [(item.block r ids n).placed parent (first? ids (n + item.size r) rest)].Sublist
        ((r.phrase item.opener).before ids n ++
          (item.block r ids n).placed parent (first? ids (n + item.size r) rest) :: item.inside r ids n) :=
      List.singleton_sublist.2 (by simp)
    exact hhead.append (ih _ _)

theorem length_chain (n : Nat) (parent : Option BlockId) (items : List Item) :
    (chain r ids n parent items).length = items.length := by
  induction items generalizing n parent with
  | nil => rfl
  | cons item rest ih => rw [chain, List.length_cons, ih, List.length_cons]

end Item

/-! ### Following blocks -/

section Blocks

variable {s : Script} {blocks : List Block} (hs : s.blocks = Arena.ofBlocks blocks)
  (hn : (blocks.map Block.id).Nodup)

include hs hn

private theorem block_eq_ok {b : Block} (hb : b ∈ blocks) : s.block b.id = .ok b := by
  rw [Script.block, hs, (Arena.get?_ofBlocks_eq_some_iff hn).2 ⟨hb, rfl⟩]
  rfl

private theorem chainWithin_eq_ok {n : Nat} {parent : Option BlockId} {items : List Item}
    (hsub : (Item.chain r ids n parent items).Sublist blocks) {steps : Nat} (hsteps : items.length ≤ steps) :
    s.chainWithin steps (Item.first? ids n items) = .ok (Item.chain r ids n parent items) := by
  induction items generalizing n parent steps with
  | nil => cases steps <;> rfl
  | cons item rest ih =>
    -- one step of the chain is taken for the item in front
    obtain ⟨steps, rfl⟩ : ∃ k, steps = k + 1 := ⟨steps - 1, by simp at hsteps; omega⟩
    rw [Item.chain] at hsub
    have hblock := block_eq_ok hs hn (hsub.subset List.mem_cons_self)
    have hid : ((item.block r ids n).placed parent (Item.first? ids (n + item.size r) rest)).id = ids n :=
      Item.id_block n item
    rw [hid] at hblock
    have hrest := ih ((List.sublist_cons_self _ _).trans hsub) (by simpa using hsteps)
    show (s.block (ids n) >>= fun b => s.chainWithin steps b.next >>= fun rest => pure (b :: rest)) = _
    rw [hblock]
    show (s.chainWithin steps (Item.first? ids (n + item.size r) rest) >>= fun rest => pure (_ :: rest)) = _
    rw [hrest]
    rfl

/-- The blocks of chained items follow each other. -/
theorem chain_eq_ok {n : Nat} {parent : Option BlockId} {items : List Item}
    (hsub : (Item.chained r ids n parent items).Sublist blocks) :
    s.chain (Item.first? ids n items) = .ok (Item.chain r ids n parent items) := by
  have hchain := (Item.chain_sublist_chained n parent items).trans hsub
  refine chainWithin_eq_ok hs hn hchain ?_
  rw [hs, Arena.length_ofBlocks, ← @Item.length_chain r ids n parent items]
  exact Nat.le_succ_of_le hchain.length_le

private theorem substack_eq_ok {b : Block} (hb : b ∈ blocks) {slot : String} {first? : Option BlockId}
    (hget : Keyed.get? Input.slot slot b.inputs = first?.map (Input.block slot .substack)) {l : List Block}
    (hchain : s.chain first? = .ok l) : s.substack b.id slot = .ok l := by
  unfold Script.substack
  rw [block_eq_ok hs hn hb]
  dsimp only [bind, Except.bind]
  rw [hget]
  cases first? with
  | none =>
    rw [← hchain]
    rfl
  | some first => exact hchain

end Blocks

/-! ### Bodies -/

private theorem get?_bodyInput_self (slot : String) (first? : Option BlockId) :
    Keyed.get? Input.slot slot (first?.toList.map (Input.block slot .substack)) =
      first?.map (Input.block slot .substack) := by
  cases first? <;> simp [Keyed.get?, Input.slot]

private theorem get?_bodyInput_of_ne {slot slot' : String} (h : slot ≠ slot') (first? : Option BlockId) :
    Keyed.get? Input.slot slot' (first?.toList.map (Input.block slot .substack)) = none := by
  cases first? <;> simp [Keyed.get?, Input.slot, h]

private theorem get?_append {l l' : List Input} {slot : String} (h : slot ∉ l.map Input.slot) :
    Keyed.get? Input.slot slot (l ++ l') = Keyed.get? Input.slot slot l' := by
  have hnone : l.find? (Input.slot · == slot) = none := by
    rw [List.find?_eq_none]
    intro input hinput he
    exact h (List.mem_map.2 ⟨input, hinput, by simpa using he⟩)
  rw [Keyed.get?, List.find?_append, hnone, Option.none_or, Keyed.get?]

private theorem get?_append_of_eq_none {l l' : List Input} {slot : String}
    (h : Keyed.get? Input.slot slot l' = none) :
    Keyed.get? Input.slot slot (l ++ l') = Keyed.get? Input.slot slot l := by
  unfold Keyed.get? at h ⊢
  rw [List.find?_append, h, Option.or_none]

private theorem get?_append_body {slot slot' : String} (h : slot ≠ slot') (first? : Option BlockId) (l : List Input) :
    Keyed.get? Input.slot slot' (first?.toList.map (Input.block slot .substack) ++ l) =
      Keyed.get? Input.slot slot' l := by
  apply get?_append
  cases first? <;> simp [Input.slot, Ne.symm h]

private theorem firstBody_ne_secondBody : Script.firstBody ≠ Script.secondBody := by
  decide

private theorem get?_inputs_block {item : Item} (h : ∀ line ∈ item.lines, r.isReadable line = true)
    (opens : item.opener.kind.opens = true) (n : Nat) {slot : String}
    (hslot : slot = Script.firstBody ∨ slot = Script.secondBody) :
    Keyed.get? Input.slot slot (item.block r ids n).inputs = Keyed.get? Input.slot slot (item.bodyInputs r ids n) := by
  obtain ⟨-, hfits, hbodies⟩ := Reader.fits_opener opens (h item.opener item.opener_mem_lines)
  rw [Item.inputs_block h]
  apply get?_append
  rw [Arguments.map_slot_inputs _ _ _ hfits.arguments_complete]
  rcases hslot with rfl | rfl
  · exact hbodies.1
  · exact hbodies.2

private theorem opcode_opener {opener : Line} (opens : opener.kind.opens = true) :
    opener.kind.opcode = some (r.phrase opener).op.opcode := by
  rw [Reader.op_phrase_opener opens]
  revert opens
  cases opener.kind with
  | other name =>
    intro opens
    cases opens
  | _ => decide

/-- No command and no container stands among the blocks of arguments. -/
private theorem filter_before {p : Phrase} (h : p.arguments.areOperands = true) (n : Nat) :
    (p.before ids n).filter (·.shape.isStacked) = [] := by
  rw [List.filter_eq_nil_iff]
  intro c hc
  exact Bool.eq_false_iff.1 (Shape.isStacked_of_isOperand (p.arguments.isOperand_blocks ids _ _ h c hc))

private theorem filter_blocks {n : Nat} {parent next : Option BlockId} {item : Item}
    (h : ∀ line ∈ item.lines, r.isReadable line = true) :
    (item.blocks r ids n parent next).filter (·.shape.isStacked) =
      (item.block r ids n).placed parent next :: (item.inside r ids n).filter (·.shape.isStacked) := by
  obtain ⟨shape, hfits, -⟩ := Item.fits_of_isReadable h
  rw [Item.blocks, List.filter_append, filter_before hfits.operands, List.nil_append, List.filter_cons_of_pos]
  exact Item.isStacked_block h n

private theorem mem_of_sublist_blocks {n : Nat} {parent next : Option BlockId} {item : Item} {blocks : List Block}
    (h : (item.blocks r ids n parent next).Sublist blocks) : (item.block r ids n).placed parent next ∈ blocks :=
  h.subset (by simp [Item.blocks])

private theorem inside_sublist {n : Nat} {parent next : Option BlockId} {item : Item} {blocks : List Block}
    (h : (item.blocks r ids n parent next).Sublist blocks) : (item.inside r ids n).Sublist blocks :=
  (List.sublist_append_of_sublist_right (List.sublist_cons_self _ _)).trans h

/-! ### Items -/

variable {s : Script} {blocks : List Block}

mutual

private theorem showsItem (hs : s.blocks = Arena.ofBlocks blocks) (hn : (blocks.map Block.id).Nodup) {n : Nat}
    {parent next : Option BlockId} : (item : Item) → (∀ line ∈ item.lines, r.isReadable line = true) →
      (item.blocks r ids n parent next).Sublist blocks →
        s.ShowsItem item ((item.block r ids n).placed parent next)
          ((item.blocks r ids n parent next).filter (·.shape.isStacked))
  | .statement line isStatement, h, _ => by
    obtain ⟨values, hlookup⟩ := Reader.lookup_statement isStatement (h line (by simp [Item.lines]))
    rw [filter_blocks h, Item.inside]
    exact .statement hlookup rfl
  | .enclosed opener opens body closer closes, h, hsub => by
    have hmem := mem_of_sublist_blocks hsub
    have hinside := inside_sublist hsub
    have hfirst := @get?_inputs_block r ids _ h opens n Script.firstBody (.inl rfl)
    have hsecond := @get?_inputs_block r ids _ h opens n Script.secondBody (.inr rfl)
    rw [filter_blocks h]
    rw [Item.inside] at hinside ⊢
    rw [Item.bodyInputs, get?_bodyInput_self] at hfirst
    rw [Item.bodyInputs, get?_bodyInput_of_ne firstBody_ne_secondBody] at hsecond
    refine .enclosed ?_ (substack_eq_ok hs hn hmem hfirst (chain_eq_ok hs hn hinside))
      (@substack_eq_ok _ _ hs hn _ hmem _ none hsecond _ rfl) (showsItems hs hn body (Item.forall_of_enclosed h) hinside)
    rw [opcode_opener opens]
    show some _ = some (Block.withBody _ _ _).opcode
    rw [Block.opcode_withBody]
    rfl
  | .forked opener isIf body middle isElse alternative closer closes, h, hsub => by
    have opens : opener.kind.opens = true := by rw [isIf]; rfl
    obtain ⟨hbody, halternative⟩ := Item.forall_of_forked h
    have hmem := mem_of_sublist_blocks hsub
    have hinside := inside_sublist hsub
    have hfirst := @get?_inputs_block r ids _ h opens n Script.firstBody (.inl rfl)
    have hsecond := @get?_inputs_block r ids _ h opens n Script.secondBody (.inr rfl)
    rw [filter_blocks h]
    rw [Item.inside] at hinside ⊢
    rw [Item.bodyInputs, get?_append_of_eq_none (get?_bodyInput_of_ne firstBody_ne_secondBody.symm _),
      get?_bodyInput_self] at hfirst
    rw [Item.bodyInputs, get?_append_body firstBody_ne_secondBody, get?_bodyInput_self] at hsecond
    have hbodySub := (List.sublist_append_left _ _).trans hinside
    have halternativeSub := (List.sublist_append_right _ _).trans hinside
    rw [List.filter_append]
    exact .forked (Block.opcode_withBody _ _ _)
      (substack_eq_ok hs hn hmem hfirst (chain_eq_ok hs hn hbodySub))
      (substack_eq_ok hs hn hmem hsecond (chain_eq_ok hs hn halternativeSub))
      (showsItems hs hn body hbody hbodySub) (showsItems hs hn alternative halternative halternativeSub)

private theorem showsItems (hs : s.blocks = Arena.ofBlocks blocks) (hn : (blocks.map Block.id).Nodup) {n : Nat}
    {parent : Option BlockId} : (items : List Item) → (∀ line ∈ Item.allLines items, r.isReadable line = true) →
      (Item.chained r ids n parent items).Sublist blocks →
        s.ShowsItems items (Item.chain r ids n parent items)
          ((Item.chained r ids n parent items).filter (·.shape.isStacked))
  | [], _, _ => .nil
  | item :: rest, h, hsub => by
    obtain ⟨hitem, hrest⟩ := Item.forall_allLines_cons.1 h
    rw [Item.chained_cons] at hsub ⊢
    rw [List.filter_append, Item.chain]
    exact .cons (showsItem hs hn item hitem ((List.sublist_append_left _ _).trans hsub))
      (showsItems hs hn rest hrest ((List.sublist_append_right _ _).trans hsub))

end

/-! ### Scripts -/

namespace Outline

/-- The block on top of a script, with the first block below it. -/
def top (r : Reader) (ids : IdSource) (n : Nat) (o : Outline) : Block :=
  ((r.phrase o.hat).block ids n).placed none (Item.first? ids (n + (r.phrase o.hat).size) o.items)

private theorem filter_blocks {n : Nat} {o : Outline} (h : ∀ line ∈ o.lines, r.isReadable line = true) :
    (o.blocks r ids n).filter (·.shape.isStacked) =
      (Item.chained r ids (n + (r.phrase o.hat).size) (some (ids n)) o.items).filter (·.shape.isStacked) := by
  obtain ⟨-, hfits⟩ := Reader.fits_trigger o.isTrigger (forall_lines.1 h).1
  have hhat : (top r ids n o).shape.isStacked = false := by
    have hshape : (top r ids n o).shape = .hat := hfits.shape
    rw [hshape]
    rfl
  rw [blocks, List.filter_append, filter_before hfits.operands, List.nil_append]
  exact List.filter_cons_of_neg (Bool.eq_false_iff.1 hhat)

/-- The script of an outline shows it. -/
theorem shows_script {n : Nat} {o : Outline} (h : ∀ line ∈ o.lines, r.isReadable line = true)
    (hn : (ids.span n (o.size r)).Nodup) : (o.script r ids n).Shows o := by
  have hnodup : ((o.blocks r ids n).map Block.id).Nodup := (o.ids_perm n).nodup_iff.2 hn
  have hs : (o.script r ids n).blocks = Arena.ofBlocks (o.blocks r ids n) := rfl
  have hsub : (Item.chained r ids (n + (r.phrase o.hat).size) (some (ids n)) o.items).Sublist (o.blocks r ids n) :=
    List.sublist_append_of_sublist_right (List.sublist_cons_self _ _)
  have htop : (o.script r ids n).topBlock = .ok (top r ids n o) :=
    block_eq_ok hs hnodup (b := top r ids n o) (by rw [blocks]; exact List.mem_append_right _ List.mem_cons_self)
  obtain ⟨hhat, hitems⟩ := forall_lines.1 h
  obtain ⟨values, hlookup⟩ := Reader.lookup_trigger o.isTrigger hhat
  refine ⟨⟨top r ids n o, _, values, htop, hlookup, rfl⟩, _, _, ?_, showsItems hs hnodup o.items hitems hsub, ?_, ?_⟩
  · unfold Script.body
    rw [htop]
    exact chain_eq_ok hs hnodup hsub
  · rw [hs, Arena.blocks_ofBlocks, filter_blocks h]
  · exact hnodup.sublist ((List.filter_sublist.trans hsub).map Block.id)

theorem shows_scripts {outlines : List Outline} (h : ∀ line ∈ allLines outlines, r.isReadable line = true) (n : Nat)
    (hn : Distinct r ids n outlines) : List.Forall₂ Script.Shows (scripts r ids n outlines) outlines := by
  induction outlines generalizing n with
  | nil => exact .nil
  | cons o outlines ih =>
    obtain ⟨ho, houtlines⟩ := forall_allLines_cons.1 h
    exact .cons (shows_script ho hn.1) (ih houtlines _ hn.2)

end Outline

/-- The lines of a source that compiles are those of scripts in exactly one way.  There is one script for each `when`
line, in the same order, and the compiled scripts show them one by one. -/
theorem shows_of_compileSource (o : Options) (validate : Bool) (source : Text) (scripts : List Script)
    (h : (compileSource o validate source).result = .ok scripts) :
    ∃ outlines, Outline.allLines outlines = Line.significant source ∧
      (∀ outlines', Outline.allLines outlines' = Line.significant source → outlines' = outlines) ∧
      outlines.map Outline.hat = (Line.significant source).filter (·.kind = .trigger) ∧
      List.Forall₂ Script.Shows scripts outlines := by
  obtain ⟨outlines, hlines, rfl, hr, hdistinct⟩ := exists_outlines_of_result h
  refine ⟨outlines, hlines, fun outlines' hlines' => ?_, ?_, ?_⟩
  · exact Outline.allLines_injective (hlines'.trans hlines.symm)
  · rw [Outline.map_hat, hlines]
  · exact Outline.shows_scripts (by rwa [hlines]) 0 hdistinct

set_option maxRecDepth 10000 in
/-- A script with an empty body and a container in a second body. -/
theorem shows_of_compileSource_nested : ∃ scripts,
    (compileSource ⟨⟨⟨[]⟩, 32⟩, IdSource.default⟩ true
      "when flag clicked\nif <mouse down?> then\nelse\nforever\nhide\nend\nend".toList).result = .ok scripts ∧
      scripts.length = 1 ∧
      ∃ outlines, Outline.allLines outlines =
          Line.significant "when flag clicked\nif <mouse down?> then\nelse\nforever\nhide\nend\nend".toList ∧
        (∀ outlines', Outline.allLines outlines' =
            Line.significant "when flag clicked\nif <mouse down?> then\nelse\nforever\nhide\nend\nend".toList →
          outlines' = outlines) ∧
        outlines.map Outline.hat =
          (Line.significant "when flag clicked\nif <mouse down?> then\nelse\nforever\nhide\nend\nend".toList).filter
            (·.kind = .trigger) ∧
        List.Forall₂ Script.Shows scripts outlines := by
  obtain ⟨scripts, hscripts, hcount⟩ := @exists_scripts_of_map _
    (compileSource ⟨⟨⟨[]⟩, 32⟩, IdSource.default⟩ true
      "when flag clicked\nif <mouse down?> then\nelse\nforever\nhide\nend\nend".toList) List.length 1 (by decide +kernel)
  exact ⟨scripts, hscripts, hcount, shows_of_compileSource _ _ _ scripts hscripts⟩

end BlockScript
