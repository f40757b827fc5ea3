import BlockScript.Compile
import BlockScript.Proofs.Builder.Link

/-!
# The builder follows the draft

`Draft.Built` says that a builder holds the blocks and the open bodies of a draft.  Carrying out a line that can be
read keeps this, and it succeeds exactly if the line takes the draft to another one:

* `Draft.Built.exists_step`: if carrying out a line succeeds, the line can be read and takes the draft to a draft
  that the builder holds then;
* `Draft.Built.perform_of_step`: if a line can be read and takes the draft to another one whose ids do not repeat,
  carrying it out succeeds.
-/

namespace BlockScript

variable {r : Reader} {ids : IdSource}

theorem Build.append_eq_ok (id : BlockId) (b : Builder) :
    Build.append id b = .ok () { b with openBodies := OpenBody.appendInner [id] b.openBodies } := by
  obtain ⟨drawn, issued, arena, openBodies, top, events⟩ := b
  cases openBodies <;> rfl

namespace Draft

/-- The builder holds the blocks and the open bodies of a draft whose script begins at place `n`. -/
structure Built (r : Reader) (ids : IdSource) (n : Nat) (d : Draft) (b : Builder) : Prop where
  drawn : b.drawn = n + d.size r
  issued : b.issued = ids.span n (d.size r)
  nodup : b.issued.Nodup
  arena : b.arena = Arena.ofBlocks (d.blocks r ids n)
  openBodies : b.openBodies = d.bodies r ids n
  top : b.top = some (ids n)

namespace Built

variable {n : Nat} {d d' : Draft} {b b' : Builder} {line : Line}

theorem nodup_ids (h : Built r ids n d b) : ((d.blocks r ids n).map Block.id).Nodup :=
  (d.ids_perm n).nodup_iff.2 (h.issued ▸ h.nodup)

theorem sound (h : Built r ids n d b) : b.Sound where
  nodup := h.nodup
  issued_of_key id hid := by
    rw [h.arena, Arena.keys_ofBlocks] at hid
    rw [h.issued]
    exact (d.ids_perm n).subset hid

/-! ### Lines with a term -/

/-- What the builder holds after a term has been built. -/
private theorem emit (h : Built r ids n d b) {p : Phrase} {shape : Shape} (hfits : p.Fits shape)
    (hshape : shape.isStacked = true) {id : BlockId} (hemit : p.term.emit ids none b = .ok id b') :
    id = ids (n + d.size r) ∧ b'.drawn = n + (d.size r + p.size) ∧
      b'.issued = ids.span n (d.size r + p.size) ∧ b'.issued.Nodup ∧
      b'.arena = Arena.ofBlocks (d.blocks r ids n ++ p.term.blocks ids (n + d.size r) none) ∧
      b'.openBodies = d.bodies r ids n ∧ b'.top = some (ids n) := by
  obtain ⟨hid, -, hsound, hgrows⟩ := p.term.emit_grows ids none h.sound hemit
  rw [h.drawn] at hid hgrows
  have htop : ∀ c ∈ p.term.blocks ids (n + d.size r) none, c.isTop = false := by
    intro c hc
    rw [Phrase.blocks_term, List.mem_append, List.mem_singleton] at hc
    apply Block.isTop_eq_false
    rcases hc with hc | rfl
    · exact .inl (p.arguments.isOperand_blocks ids _ _ hfits.operands c hc)
    · rw [← hfits.shape] at hshape
      exact .inr hshape
  refine ⟨hid, ?_, ?_, hsound.nodup, ?_, hgrows.openBodies.trans h.openBodies, (hgrows.top htop).trans h.top⟩
  · rw [hgrows.drawn, h.drawn, Phrase.size_term, Nat.add_assoc]
  · rw [hgrows.issued, h.issued, h.drawn, Phrase.size_term, ← IdSource.span_add]
  · rw [hgrows.arena, h.arena, Arena.ofBlocks_append]

private theorem exists_emit (h : Built r ids n d b) {p : Phrase} {shape : Shape} (hfits : p.Fits shape)
    (hn : (ids.span n (d.size r + p.size)).Nodup) : ∃ id b', p.term.emit ids none b = .ok id b' := by
  refine p.term.emit_of_isComplete ids none hfits.complete h.sound ?_
  rwa [h.issued, h.drawn, Phrase.size_term, ← IdSource.span_add]

private theorem of_statement (h : Built r ids n d b) (isStatement : line.kind = .statement) {p : Phrase}
    (hp : r.phrase line = p) (hfits : p.Fits .command) {u : Unit}
    (hperform : Compile.perform ids line.number (.add p.term) b = .ok u b') :
    Built r ids n (d.push (.statement line isStatement)) b' := by
  obtain ⟨id, b₁, hemit, happend⟩ := bind_eq_ok_iff.1 hperform
  rw [Build.append_eq_ok] at happend
  obtain rfl := (EStateM.Result.ok.inj happend).2
  obtain ⟨rfl, hdrawn, hissued, hnodup, harena, hbodies, htop⟩ := h.emit hfits rfl hemit
  subst hp
  have hsize : (d.push (.statement line isStatement)).size r = d.size r + (r.phrase line).size := by
    rw [size_push, Item.size]
  refine ⟨?_, ?_, hnodup, ?_, ?_, htop⟩
  · rw [hsize]
    exact hdrawn
  · rw [hsize]
    exact hissued
  · rw [blocks_push]
    exact harena
  · rw [bodies_push, ← hbodies]

private theorem of_opener (h : Built r ids n d b) (opens : line.kind.opens = true) {p : Phrase}
    (hp : r.phrase line = p) (hfits : p.Fits .container) {u : Unit}
    (hperform : Compile.perform ids line.number (.enter p.term) b = .ok u b') :
    Built r ids n (d.enter line opens) b' := by
  obtain ⟨id, b₁, hemit, hopen⟩ := bind_eq_ok_iff.1 hperform
  obtain ⟨_, _, happend, hpush⟩ := bind_eq_ok_iff.1 hopen
  rw [Build.append_eq_ok] at happend
  obtain rfl := (EStateM.Result.ok.inj happend).2
  obtain rfl := (EStateM.Result.ok.inj hpush).2
  obtain ⟨rfl, hdrawn, hissued, hnodup, harena, hbodies, htop⟩ := h.emit hfits rfl hemit
  subst hp
  refine ⟨hdrawn, hissued, hnodup, ?_, ?_, htop⟩
  · rw [blocks_enter]
    exact harena
  · rw [bodies_enter, ← hbodies]

/-! ### Lines that close a body -/

section Close

variable {hat : Line} {isTrigger : hat.kind = .trigger} {items : List Item} {outer : List Frame} {frame : Frame}
  {m : Nat}

/-- The innermost open container stands behind the others. -/
private theorem blocksOf_cons (hm : n + taken r hat items outer = m) :
    blocksOf r ids n hat items (frame :: outer) =
      (blocksOf r ids n hat items outer ++ (r.phrase frame.opener).before ids m) ++ frame.block r ids m ::
        (frame.settled r ids m ++ Item.loose r ids (m + frame.offset r) (some (ids m)) frame.items) := by
  rw [blocksOf, hm, Frame.blocks, List.append_assoc]

theorem bodies_cons (hm : n + taken r hat items outer = m) :
    bodies r ids n ⟨hat, isTrigger, items, frame :: outer⟩ =
      ⟨ids m, frame.line.number, frame.slot, Item.heads r ids (m + frame.offset r) frame.items⟩ ::
        bodiesOf r ids n hat items outer [ids m] := by
  rw [bodies, bodiesOf, hm, List.append_nil]

theorem get?_container (h : Built r ids n ⟨hat, isTrigger, items, frame :: outer⟩ b)
    (hm : n + taken r hat items outer = m) : b.arena.get? (ids m) = some (frame.block r ids m) := by
  rw [h.arena, Arena.get?_ofBlocks_eq_some_iff h.nodup_ids]
  exact ⟨by simp [blocks, blocksOf_cons hm], frame.id_block m⟩

/-- The items of the innermost open body are chained below its container. -/
private theorem settle (h : Built r ids n ⟨hat, isTrigger, items, frame :: outer⟩ b)
    (hm : n + taken r hat items outer = m) (bodies : List OpenBody) :
    Build.settle ⟨ids m, frame.line.number, frame.slot, Item.heads r ids (m + frame.offset r) frame.items⟩
        { b with openBodies := bodies } =
      .ok () { b with
        openBodies := bodies
        arena := Arena.ofBlocks
          ((blocksOf r ids n hat items outer ++ (r.phrase frame.opener).before ids m) ++
            (frame.block r ids m).withBody frame.slot (Item.first? ids (m + frame.offset r) frame.items) ::
              (frame.settled r ids m ++
                Item.chained r ids (m + frame.offset r) (some (ids m)) frame.items)) } := by
  have hn := h.nodup_ids
  rw [blocks, blocksOf_cons hm, ← List.cons_append, ← List.append_assoc, List.map_append] at hn
  have hsettle := @Build.settle_eq_ok r ids { b with openBodies := bodies } _ _ (frame.block r ids m) _ _ _
    ⟨ids m, frame.line.number, frame.slot, Item.heads r ids (m + frame.offset r) frame.items⟩
    (frame.id_block m).symm rfl (h.arena.trans (congrArg Arena.ofBlocks (blocksOf_cons hm)))
    (((Item.loose_ids_perm _ _ _).append_left _).nodup_iff.1 hn)
  rw [frame.id_block m] at hsettle
  exact hsettle

/-- The builder holds the draft without the innermost body once the container is stored with the items chained below
it and with its parent. -/
private theorem closed (h : Built r ids n ⟨hat, isTrigger, items, frame :: outer⟩ b) (closes : line.kind = .close)
    (hm : n + taken r hat items outer = m) :
    Built r ids n (push (frame.closed line closes) ⟨hat, isTrigger, items, outer⟩) { b with
      openBodies := bodiesOf r ids n hat items outer [ids m]
      arena := Arena.ofBlocks (blocksOf r ids n hat items outer ++
        (frame.closed line closes).blocks r ids m (ownerOf r ids n hat items outer) none) } := by
  have hsize : (push (frame.closed line closes) ⟨hat, isTrigger, items, outer⟩).size r =
      taken r hat items (frame :: outer) := by
    rw [size_push, Frame.size_closed]
    rfl
  refine ⟨?_, ?_, h.nodup, ?_, ?_, h.top⟩
  · rw [hsize]
    exact h.drawn
  · rw [hsize]
    exact h.issued
  · rw [blocks_push, Frame.parentIn_closed, ← hm]
    rfl
  · rw [bodies_push, bodies, appendInner_bodiesOf, ← hm]
    rfl

/-- Chaining the items of the innermost body changes none of the ids. -/
private theorem nodup_closed (h : Built r ids n ⟨hat, isTrigger, items, frame :: outer⟩ b)
    (closes : line.kind = .close) (hm : n + taken r hat items outer = m) :
    ((blocksOf r ids n hat items outer ++
      (frame.closed line closes).blocks r ids m none none).map Block.id).Nodup := by
  have hperm : ((blocksOf r ids n hat items (frame :: outer)).map Block.id).Perm
      ((blocksOf r ids n hat items outer ++
        (frame.closed line closes).blocks r ids m none none).map Block.id) := by
    rw [blocksOf, hm, List.map_append, List.map_append]
    refine ((frame.ids_perm m).trans ?_).append_left _
    rw [← Frame.size_closed closes]
    exact (Item.ids_perm m none none _).symm
  exact hperm.nodup_iff.1 h.nodup_ids

private theorem of_close (h : Built r ids n ⟨hat, isTrigger, items, frame :: outer⟩ b)
    (closes : line.kind = .close) :
    ∃ id b', Build.closeBody b = .ok id b' ∧
      Built r ids n (push (frame.closed line closes) ⟨hat, isTrigger, items, outer⟩) b' := by
  obtain ⟨m, hm⟩ : ∃ m, n + taken r hat items outer = m := ⟨_, rfl⟩
  have hsettle := h.settle hm (bodiesOf r ids n hat items outer [ids m])
  have hbodies := h.openBodies.trans (bodies_cons hm)
  have hclosed := h.closed closes hm
  have hn := h.nodup_closed closes hm
  have hlone : ((frame.block r ids m).withBody frame.slot
      (Item.first? ids (m + frame.offset r) frame.items)).placed none none =
        (frame.block r ids m).withBody frame.slot (Item.first? ids (m + frame.offset r) frame.items) :=
    Block.placed_self ((Block.parent_withBody _ _ _).trans (frame.parent_block m))
      ((Block.next_withBody _ _ _).trans (frame.next_block m))
  rw [Frame.blocks_closed, ← List.append_assoc] at hclosed hn
  have hdiscard := (discard_eq_ok_iff (u := ())).2 ⟨_, (Build.block_eq_ok_iff
    (b := { b with openBodies := bodiesOf r ids n hat items outer [ids m] })).2 ⟨h.get?_container hm, rfl⟩⟩
  refine ⟨ids m, _, bind_eq_ok_iff.2 ⟨b, b, rfl, ?_⟩, hclosed⟩
  rw [hbodies]
  refine bind_eq_ok_iff.2 ⟨(), _, rfl, bind_eq_ok_iff.2 ⟨(), _, hdiscard, bind_eq_ok_iff.2 ⟨(), _, hsettle, ?_⟩⟩⟩
  -- inside of another container the closed one gets it as its parent
  cases outer with
  | nil =>
    rw [ownerOf, hlone]
    rfl
  | cons next outer =>
    have hparent := Arena.setParent_placed (ids (n + taken r hat items outer)) hn
    rw [hlone, Block.id_withBody, frame.id_block] at hparent
    refine bind_eq_ok_iff.2 ⟨(), _, rfl, ?_⟩
    rw [ownerOf, ← hparent]
    rfl

theorem opcode_opener {opener : Line} (opens : opener.kind.opens = true) :
    ((r.phrase opener).block ids m).opcode = Operation.ifThen.opcode ↔ opener.kind = .ifThen := by
  show (r.phrase opener).op.opcode = _ ↔ _
  rw [Reader.op_phrase_opener opens]
  revert opens
  cases opener.kind with
  | other name =>
    intro opens
    cases opens
  | _ => decide

/-- Only the first body of an `if` has another one behind it. -/
private theorem isIf_of_openSecondBody (h : Built r ids n ⟨hat, isTrigger, items, frame :: outer⟩ b) {number : Int}
    {id : BlockId} (hperform : Build.openSecondBody .ifElse number b = .ok id b') :
    ∃ opener, ∃ opens : opener.kind.opens = true, ∃ body,
      frame = .first opener opens body ∧ opener.kind = .ifThen := by
  obtain ⟨m, hm⟩ : ∃ m, n + taken r hat items outer = m := ⟨_, rfl⟩
  obtain ⟨_, _, hget, hperform⟩ := bind_eq_ok_iff.1 hperform
  cases hget
  rw [h.openBodies.trans (bodies_cons hm)] at hperform
  obtain ⟨c, _, hblock, hperform⟩ := bind_eq_ok_iff.1 hperform
  obtain ⟨hc, rfl⟩ := Build.block_eq_ok_iff.1 hblock
  obtain rfl := Option.some.inj ((h.get?_container hm).symm.trans hc)
  split at hperform
  · rename_i hif
    rw [Bool.and_eq_true, decide_eq_true_eq, decide_eq_true_eq] at hif
    cases frame with
    | first opener opens body => exact ⟨opener, opens, body, rfl, (opcode_opener opens).1 hif.1⟩
    | second => exact absurd hif.2 (show Script.secondBody ≠ Script.firstBody by decide)
  · exact absurd hperform throw_ne_ok

/-- The builder holds the draft with a second body once the container is stored as one of two bodies, the first of them
chained below it. -/
private theorem second {opener : Line} {opens : opener.kind.opens = true} {body : List Item}
    (h : Built r ids n ⟨hat, isTrigger, items, .first opener opens body :: outer⟩ b)
    (isIf : opener.kind = .ifThen) (isElse : line.kind = .otherwise) (hm : n + taken r hat items outer = m) :
    Built r ids n ⟨hat, isTrigger, items, .second opener isIf body line isElse [] :: outer⟩ { b with
      openBodies := ⟨ids m, line.number, Script.secondBody, []⟩ :: bodiesOf r ids n hat items outer [ids m]
      arena := Arena.ofBlocks (blocksOf r ids n hat items outer ++
        (Frame.second opener isIf body line isElse []).blocks r ids m) } := by
  refine ⟨h.drawn, h.issued, h.nodup, ?_, ?_, h.top⟩
  · rw [← hm]
    rfl
  · rw [bodies_cons hm]
    rfl

private theorem of_otherwise {opener : Line} {opens : opener.kind.opens = true} {body : List Item}
    (h : Built r ids n ⟨hat, isTrigger, items, .first opener opens body :: outer⟩ b)
    (isIf : opener.kind = .ifThen) (isElse : line.kind = .otherwise) :
    ∃ id b', Build.openSecondBody .ifElse line.number b = .ok id b' ∧
      Built r ids n ⟨hat, isTrigger, items, .second opener isIf body line isElse [] :: outer⟩ b' := by
  obtain ⟨m, hm⟩ : ∃ m, n + taken r hat items outer = m := ⟨_, rfl⟩
  have hsettle := h.settle hm (bodiesOf r ids n hat items outer [ids m])
  have hsecond := h.second isIf isElse hm
  have hn := hsecond.nodup_ids
  rw [blocks, blocksOf, hm] at hn
  have hblocks : blocksOf r ids n hat items outer ++ (Frame.second opener isIf body line isElse []).blocks r ids m =
      (blocksOf r ids n hat items outer ++ (r.phrase opener).before ids m) ++
        (Frame.second opener isIf body line isElse []).block r ids m ::
          Item.chained r ids (m + (r.phrase opener).size) (some (ids m)) body := by
    rw [Frame.blocks, List.append_assoc]
    exact congrArg (fun l => _ ++ (_ ++ _ :: l)) (List.append_nil _)
  have hmodify := @Arena.modify_ofBlocks_mid
    (blocksOf r ids n hat items outer ++ (r.phrase opener).before ids m)
    (Item.chained r ids (m + (r.phrase opener).size) (some (ids m)) body)
    (((r.phrase opener).block ids m).withBody Script.firstBody
      (Item.first? ids (m + (r.phrase opener).size) body))
    (fun block => { block with opcode := Operation.ifElse.opcode })
    (by
      rw [hblocks, List.map_append] at hn
      rw [List.map_append]
      exact hn) rfl
  conv_lhs at hmodify => rw [Block.id_withBody]
  rw [hblocks] at hsecond
  refine ⟨ids m, _, bind_eq_ok_iff.2 ⟨b, b, rfl, ?_⟩, hsecond⟩
  rw [h.openBodies.trans (bodies_cons hm)]
  refine bind_eq_ok_iff.2 ⟨_, _, Build.block_eq_ok_iff.2 ⟨h.get?_container hm, rfl⟩, ?_⟩
  rw [if_pos (by simp [Frame.slot, Frame.block, (opcode_opener opens).2 isIf])]
  refine bind_eq_ok_iff.2 ⟨(), _, rfl, bind_eq_ok_iff.2 ⟨(), _, hsettle, bind_eq_ok_iff.2 ⟨(), _, rfl, ?_⟩⟩⟩
  refine bind_eq_ok_iff.2 ⟨(), _, rfl, ?_⟩
  show EStateM.Result.ok _ _ = _
  rw [show Frame.settled r ids m (.first opener opens body) = [] from rfl]
  exact congrArg (fun arena => EStateM.Result.ok (ids m) { b with
    openBodies := ⟨ids m, line.number, Script.secondBody, []⟩ :: bodiesOf r ids n hat items outer [ids m]
    arena := arena }) hmodify

end Close

/-! ### Any line below the hat -/

/-- A term that was built could be read. -/
private theorem isComplete_of_emit (h : Built r ids n d b) {t : Term} {owner : Option BlockId} {id : BlockId}
    (hemit : t.emit ids owner b = .ok id b') : t.isComplete = true :=
  (t.emit_grows ids owner h.sound hemit).2.1

private theorem exists_step_opener (h : Built r ids n d b) (opens : line.kind.opens = true) {u : Unit}
    (hperform : Compile.perform ids line.number (r.instruction line) b = .ok u b') :
    ∃ d', d.Step line d' ∧ r.isReadable line = true ∧ Built r ids n d' b' := by
  obtain ⟨values, hi⟩ := Reader.instruction_opener (r := r) opens
  rw [hi] at hperform
  obtain ⟨id, b₁, hemit, -⟩ := bind_eq_ok_iff.1 hperform
  have hr : r.isReadable line = true := by
    rw [Reader.isReadable, hi]
    exact h.isComplete_of_emit hemit
  obtain ⟨hi', hfits, -⟩ := Reader.fits_opener opens hr
  rw [hi] at hi'
  exact ⟨_, .enter d line opens, hr, h.of_opener opens rfl hfits (Instruction.enter.inj hi' ▸ hperform)⟩

private theorem exists_step_statement (h : Built r ids n d b) (isStatement : line.kind = .statement) {u : Unit}
    (hperform : Compile.perform ids line.number (r.instruction line) b = .ok u b') :
    ∃ d', d.Step line d' ∧ r.isReadable line = true ∧ Built r ids n d' b' := by
  have hi := Reader.instruction_statement (r := r) isStatement
  rw [hi] at hperform
  obtain ⟨id, b₁, hemit, -⟩ := bind_eq_ok_iff.1 hperform
  have hr : r.isReadable line = true := by
    rw [Reader.isReadable, hi]
    exact h.isComplete_of_emit hemit
  obtain ⟨hi', hfits⟩ := Reader.fits_statement isStatement hr
  rw [hi] at hi'
  exact ⟨_, .statement d line isStatement, hr,
    h.of_statement isStatement rfl hfits (Instruction.add.inj hi' ▸ hperform)⟩

/-- A second body is only opened in a draft whose innermost body is the first one of an `if`. -/
private theorem exists_step_otherwise (h : Built r ids n d b) (isElse : line.kind = .otherwise) {id : BlockId}
    (hopen : Build.openSecondBody .ifElse line.number b = .ok id b') :
    ∃ d', d.Step line d' ∧ Built r ids n d' b' := by
  obtain ⟨hat, isTrigger, items, frames⟩ := d
  cases frames with
  | nil =>
    obtain ⟨_, _, hget, hopen⟩ := bind_eq_ok_iff.1 hopen
    cases hget
    rw [h.openBodies] at hopen
    exact absurd hopen throw_ne_ok
  | cons frame outer =>
    obtain ⟨opener, opens, body, rfl, isIf⟩ := h.isIf_of_openSecondBody hopen
    obtain ⟨_, _, hopen', hbuilt⟩ := h.of_otherwise isIf isElse
    rw [hopen] at hopen'
    obtain rfl := (EStateM.Result.ok.inj hopen').2
    exact ⟨_, .otherwise hat isTrigger items outer opener opens isIf body line isElse, hbuilt⟩

/-- A body is only closed in a draft that has one open. -/
private theorem exists_step_close (h : Built r ids n d b) (closes : line.kind = .close) {id : BlockId}
    (hclose : Build.closeBody b = .ok id b') : ∃ d', d.Step line d' ∧ Built r ids n d' b' := by
  obtain ⟨hat, isTrigger, items, frames⟩ := d
  cases frames with
  | nil =>
    obtain ⟨_, _, hget, hclose⟩ := bind_eq_ok_iff.1 hclose
    cases hget
    rw [h.openBodies] at hclose
    exact absurd hclose throw_ne_ok
  | cons frame outer =>
    obtain ⟨_, _, hclose', hbuilt⟩ := h.of_close closes
    rw [hclose] at hclose'
    obtain rfl := (EStateM.Result.ok.inj hclose').2
    exact ⟨_, .close hat isTrigger items outer frame line closes, hbuilt⟩

/-- If carrying out a line succeeds, it can be read and takes the draft to one that the builder holds then. -/
theorem exists_step (h : Built r ids n d b) (hk : line.kind ≠ .trigger) {u : Unit}
    (hperform : Compile.perform ids line.number (r.instruction line) b = .ok u b') :
    ∃ d', d.Step line d' ∧ r.isReadable line = true ∧ Built r ids n d' b' := by
  -- all kinds that open a container say one instruction, the other kinds have one each
  by_cases opens : line.kind.opens = true
  · exact h.exists_step_opener opens hperform
  cases hkind : line.kind with
  | trigger => exact absurd hkind hk
  | statement => exact h.exists_step_statement hkind hperform
  | «otherwise» =>
    have hi := Reader.instruction_otherwise (r := r) hkind
    rw [hi] at hperform
    obtain ⟨id, hopen⟩ := discard_eq_ok_iff.1 hperform
    obtain ⟨d', hstep, hbuilt⟩ := h.exists_step_otherwise hkind hopen
    exact ⟨d', hstep, by rw [Reader.isReadable, hi], hbuilt⟩
  | close =>
    have hi := Reader.instruction_close (r := r) hkind
    rw [hi] at hperform
    obtain ⟨id, hclose⟩ := discard_eq_ok_iff.1 hperform
    obtain ⟨d', hstep, hbuilt⟩ := h.exists_step_close hkind hclose
    exact ⟨d', hstep, by rw [Reader.isReadable, hi], hbuilt⟩
  | finish =>
    rw [Reader.instruction, hkind] at hperform
    exact absurd hperform throw_ne_ok
  | other name =>
    rw [Reader.instruction, hkind] at hperform
    exact absurd hperform throw_ne_ok
  | _ => exact absurd (by rw [hkind]; rfl) opens

/-- Carrying out a line that can be read succeeds if it takes the draft to one whose ids do not repeat. -/
theorem perform_of_step (h : Built r ids n d b) (hstep : d.Step line d') (hr : r.isReadable line = true)
    (hn : (ids.span n (d'.size r)).Nodup) :
    ∃ b', Compile.perform ids line.number (r.instruction line) b = .ok () b' ∧ Built r ids n d' b' := by
  cases hstep with
  | statement _ _ isStatement =>
    obtain ⟨hi, hfits⟩ := Reader.fits_statement isStatement hr
    rw [size_push, Item.size] at hn
    obtain ⟨id, b₁, hemit⟩ := h.exists_emit hfits hn
    have hperform := bind_eq_ok_iff.2 ⟨id, b₁, hemit, Build.append_eq_ok id b₁⟩
    rw [hi]
    exact ⟨_, hperform, h.of_statement isStatement rfl hfits hperform⟩
  | enter _ _ opens =>
    obtain ⟨hi, hfits, -⟩ := Reader.fits_opener opens hr
    rw [size_enter] at hn
    obtain ⟨id, b₁, hemit⟩ := h.exists_emit hfits hn
    have hopen : Build.openBody id line.number b₁ = .ok () _ :=
      bind_eq_ok_iff.2 ⟨(), _, Build.append_eq_ok id b₁, rfl⟩
    have hperform : Compile.perform ids line.number (.enter (r.phrase line).term) b = .ok () _ :=
      bind_eq_ok_iff.2 ⟨id, b₁, hemit, hopen⟩
    rw [hi]
    exact ⟨_, hperform, h.of_opener opens rfl hfits hperform⟩
  | «otherwise» hat isTrigger items outer opener opens isIf body _ isElse =>
    obtain ⟨id, b', hopen, hbuilt⟩ := h.of_otherwise isIf isElse
    rw [Reader.instruction_otherwise isElse]
    exact ⟨b', discard_eq_ok_iff.2 ⟨id, hopen⟩, hbuilt⟩
  | close hat isTrigger items outer frame _ closes =>
    obtain ⟨id, b', hclose, hbuilt⟩ := h.of_close closes
    rw [Reader.instruction_close closes]
    exact ⟨b', discard_eq_ok_iff.2 ⟨id, hclose⟩, hbuilt⟩

end Built

end Draft

end BlockScript
