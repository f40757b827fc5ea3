import BlockScript.Builder.Basic
import BlockScript.Proofs.Layout.Item
import BlockScript.Proofs.Outline.Draft

/-!
# The blocks of a script

The blocks of a complete script at place `n` are those of its hat and the chained ones of its items.  While a script
is being read, the items of a body that is still open are loose: they have no next block, and no parent but for
containers that have been closed inside of another one.  `Draft.blocks` and `Draft.bodies` give the blocks and the
open bodies of a draft; `Draft.blocks_push` and `Draft.bodies_push` say what another item adds to them.
-/

namespace BlockScript

variable (r : Reader) (ids : IdSource)

namespace Item

/-- The parent of a complete item in an open body of the container `owner`. -/
def parentIn (owner : Option BlockId) : Item → Option BlockId
  | statement _ _ => none
  | enclosed _ _ _ _ _ => owner
  | forked _ _ _ _ _ _ _ _ => owner

/-- The blocks of items at place `n` in an open body of the container `owner`. -/
def loose (n : Nat) (owner : Option BlockId) : List Item → List Block
  | [] => []
  | item :: rest => item.blocks r ids n (item.parentIn owner) none ++ loose (n + item.size r) owner rest

variable {r ids}

theorem loose_append (n : Nat) (owner : Option BlockId) (items items' : List Item) :
    loose r ids n owner (items ++ items') =
      loose r ids n owner items ++ loose r ids (n + sizes r items) owner items' := by
  induction items generalizing n with
  | nil => rfl
  | cons item items ih =>
    rw [List.cons_append, loose, ih, loose, sizes, List.append_assoc, Nat.add_assoc]

theorem loose_ids_perm (n : Nat) (owner : Option BlockId) (items : List Item) :
    ((loose r ids n owner items).map Block.id).Perm (ids.span n (sizes r items)) := by
  induction items generalizing n with
  | nil => exact List.Perm.refl _
  | cons item items ih =>
    rw [loose, sizes, List.map_append, IdSource.span_add]
    exact (item.ids_perm n _ _).append (ih _)

/-- Loose items stand side by side. -/
theorem forest_loose (n : Nat) {items : List Item} (h : ∀ line ∈ allLines items, r.isReadable line = true) :
    Forest none (heads r ids n items) (loose r ids n none items) := by
  induction items generalizing n with
  | nil => exact Forest.nil _
  | cons item items ih =>
    obtain ⟨hitem, hitems⟩ := forall_allLines_cons.1 h
    have hparent : item.parentIn none = none := by cases item <;> rfl
    rw [heads, loose, hparent]
    exact (forest_blocks hitem).append (ih _ hitems)

end Item

/-! ### Scripts -/

namespace Outline

/-- The number of blocks of a script. -/
def size (o : Outline) : Nat :=
  (r.phrase o.hat).size + Item.sizes r o.items

/-- The blocks of a script at place `n`. -/
def blocks (n : Nat) (o : Outline) : List Block :=
  let first := n + (r.phrase o.hat).size
  (r.phrase o.hat).before ids n ++
    ((r.phrase o.hat).block ids n).placed none (Item.first? ids first o.items) ::
      Item.chained r ids first (some (ids n)) o.items

/-- The script at place `n`. -/
def script (n : Nat) (o : Outline) : Script :=
  ⟨ids n, Arena.ofBlocks (o.blocks r ids n)⟩

/-- Scripts that are laid out one behind the other, from place `n` on. -/
def scripts (n : Nat) : List Outline → List Script
  | [] => []
  | o :: rest => o.script r ids n :: scripts (n + o.size r) rest

/-- The number of blocks of some scripts. -/
def sizes : List Outline → Nat
  | [] => 0
  | o :: rest => o.size r + sizes rest

/-- No id comes twice into one of some scripts that are laid out from place `n` on. -/
def Distinct (n : Nat) : List Outline → Prop
  | [] => True
  | o :: rest => (ids.span n (o.size r)).Nodup ∧ Distinct (n + o.size r) rest

variable {r ids}

/-- What each item grants to its own blocks holds of all blocks of a script, if it holds of those of the hat. -/
theorem forall_blocks {R : Line → Prop} {Q P : Block → Prop} (h : Item.Grants r ids R Q P) {n : Nat} {o : Outline}
    (hlines : ∀ line ∈ o.lines, R line) (hblocks : ∀ c ∈ o.blocks r ids n, Q c)
    (hbefore : ∀ c ∈ (r.phrase o.hat).before ids n, P c)
    (hhat : P (((r.phrase o.hat).block ids n).placed none (Item.first? ids (n + (r.phrase o.hat).size) o.items))) :
    ∀ c ∈ o.blocks r ids n, P c := by
  obtain ⟨-, hbelow⟩ := List.forall_mem_append.1 hblocks
  refine List.forall_mem_append.2 ⟨hbefore, List.forall_mem_cons.2 ⟨hhat, ?_⟩⟩
  exact Item.forall_chained h _ _ o.items (forall_lines.1 hlines).2 (List.forall_mem_cons.1 hbelow).2

theorem sizes_append (outlines outlines' : List Outline) :
    sizes r (outlines ++ outlines') = sizes r outlines + sizes r outlines' := by
  induction outlines with
  | nil => exact (Nat.zero_add _).symm
  | cons o outlines ih => rw [List.cons_append, sizes, ih, sizes, Nat.add_assoc]

theorem scripts_append (n : Nat) (outlines outlines' : List Outline) :
    scripts r ids n (outlines ++ outlines') =
      scripts r ids n outlines ++ scripts r ids (n + sizes r outlines) outlines' := by
  induction outlines generalizing n with
  | nil => rfl
  | cons o outlines ih => rw [List.cons_append, scripts, ih, scripts, sizes, Nat.add_assoc, List.cons_append]

/-- Each of some scripts is that of an outline, laid out behind the ones in front of it. -/
theorem exists_of_mem_scripts {outlines : List Outline} {n : Nat} {s : Script} (hs : s ∈ scripts r ids n outlines) :
    ∃ before o after, outlines = before ++ o :: after ∧ s = o.script r ids (n + sizes r before) := by
  induction outlines generalizing n with
  | nil => cases hs
  | cons o outlines ih =>
    rcases List.mem_cons.1 hs with rfl | hs
    · exact ⟨[], o, outlines, rfl, rfl⟩
    · obtain ⟨before, o', after, rfl, rfl⟩ := ih hs
      exact ⟨o :: before, o', after, rfl, by rw [sizes, Nat.add_assoc]⟩

theorem distinct_append (n : Nat) (outlines outlines' : List Outline) :
    Distinct r ids n (outlines ++ outlines') ↔
      Distinct r ids n outlines ∧ Distinct r ids (n + sizes r outlines) outlines' := by
  induction outlines generalizing n with
  | nil => simp [Distinct, sizes]
  | cons o outlines ih => rw [List.cons_append, Distinct, ih, Distinct, sizes, Nat.add_assoc, and_assoc]

/-- If no id comes twice into one of some scripts, each of them is that of an outline at a place where none does. -/
theorem exists_outline_of_mem {outlines : List Outline} {n : Nat} (hn : Distinct r ids n outlines) {s : Script}
    (hs : s ∈ scripts r ids n outlines) :
    ∃ o ∈ outlines, ∃ k, s = o.script r ids k ∧ (ids.span k (o.size r)).Nodup := by
  obtain ⟨before, o, after, rfl, rfl⟩ := exists_of_mem_scripts hs
  exact ⟨o, List.mem_append_right _ List.mem_cons_self, _, rfl, ((distinct_append n before _).1 hn).2.1⟩

end Outline

/-! ### Open containers -/

namespace Frame

/-- The line that opened the container. -/
def opener : Frame → Line
  | first opener _ _ => opener
  | second opener _ _ _ _ _ => opener

/-- The line that opened the current body. -/
def line : Frame → Line
  | first opener _ _ => opener
  | second _ _ _ middle _ _ => middle

/-- The slot of the current body. -/
def slot : Frame → String
  | first _ _ _ => Script.firstBody
  | second _ _ _ _ _ _ => Script.secondBody

/-- The items of the current body. -/
def items : Frame → List Item
  | first _ _ items => items
  | second _ _ _ _ _ items => items

/-- The number of blocks in front of the current body. -/
def offset : Frame → Nat
  | first opener _ _ => (r.phrase opener).size
  | second opener _ body _ _ _ => (r.phrase opener).size + Item.sizes r body

/-- The number of blocks of an open container. -/
def size (frame : Frame) : Nat :=
  frame.offset r + Item.sizes r frame.items

/-- The block of an open container at place `n`. -/
def block (n : Nat) : Frame → Block
  | first opener _ _ => (r.phrase opener).block ids n
  | second opener _ body _ _ _ =>
    { ((r.phrase opener).block ids n).withBody Script.firstBody
        (Item.first? ids (n + (r.phrase opener).size) body) with
      opcode := Operation.ifElse.opcode }

/-- The blocks in the body that has been closed. -/
def settled (n : Nat) : Frame → List Block
  | first _ _ _ => []
  | second opener _ body _ _ _ => Item.chained r ids (n + (r.phrase opener).size) (some (ids n)) body

/-- The blocks of an open container at place `n`. -/
def blocks (n : Nat) (frame : Frame) : List Block :=
  (r.phrase frame.opener).before ids n ++ frame.block r ids n ::
    (frame.settled r ids n ++ Item.loose r ids (n + frame.offset r) (some (ids n)) frame.items)

variable {r ids}

theorem id_block (n : Nat) (frame : Frame) : (frame.block r ids n).id = ids n := by
  cases frame with
  | first => rfl
  | second => exact Block.id_withBody _ _ _

theorem parent_block (n : Nat) (frame : Frame) : (frame.block r ids n).parent = none := by
  cases frame with
  | first => rfl
  | second => exact Block.parent_withBody _ _ _

theorem next_block (n : Nat) (frame : Frame) : (frame.block r ids n).next = none := by
  cases frame with
  | first => rfl
  | second => exact Block.next_withBody _ _ _

theorem size_push (item : Item) (frame : Frame) : (frame.push item).size r = frame.size r + item.size r := by
  cases frame <;> simp [size, push, offset, items, Item.sizes_append, Item.sizes, Nat.add_assoc]

theorem blocks_push (n : Nat) (item : Item) (frame : Frame) :
    (frame.push item).blocks r ids n =
      frame.blocks r ids n ++ item.blocks r ids (n + frame.size r) (item.parentIn (some (ids n))) none := by
  cases frame <;>
    simp [blocks, push, opener, block, settled, offset, items, size, Item.loose_append, Item.loose,
      Nat.add_assoc]

/-- Closing a container puts its current body in. -/
theorem block_closed {closer : Line} (closes : closer.kind = .close) (n : Nat) (frame : Frame) :
    (frame.closed closer closes).block r ids n =
      (frame.block r ids n).withBody frame.slot (Item.first? ids (n + frame.offset r) frame.items) := by
  cases frame with
  | first => rfl
  | second =>
    rw [offset, ← Nat.add_assoc]
    rfl

theorem blocks_closed {closer : Line} (closes : closer.kind = .close) (n : Nat) (parent : Option BlockId)
    (frame : Frame) : (frame.closed closer closes).blocks r ids n parent none =
      (r.phrase frame.opener).before ids n ++
        ((frame.block r ids n).withBody frame.slot (Item.first? ids (n + frame.offset r) frame.items)).placed
          parent none ::
          (frame.settled r ids n ++ Item.chained r ids (n + frame.offset r) (some (ids n)) frame.items) := by
  rw [Item.blocks, block_closed]
  cases frame with
  | first => rfl
  | second =>
    rw [offset, ← Nat.add_assoc]
    simp [closed, Item.inside, settled, opener, Item.opener, items]

theorem size_closed {closer : Line} (closes : closer.kind = .close) (frame : Frame) :
    (frame.closed closer closes).size r = frame.size r := by
  cases frame with
  | first => rw [closed, Item.size]; rfl
  | second => rw [closed, Item.size, size, offset, items, Nat.add_assoc]

theorem parentIn_closed {closer : Line} (closes : closer.kind = .close) (owner : Option BlockId)
    (frame : Frame) : (frame.closed closer closes).parentIn owner = owner := by
  cases frame <;> rfl

theorem ids_perm (n : Nat) (frame : Frame) :
    ((frame.blocks r ids n).map Block.id).Perm (ids.span n (frame.size r)) := by
  have hsettled : ((frame.settled r ids n).map Block.id ++
      (Item.loose r ids (n + frame.offset r) (some (ids n)) frame.items).map Block.id).Perm
        (ids.span (n + (r.phrase frame.opener).size) (frame.size r - (r.phrase frame.opener).size)) := by
    cases frame with
    | first opener opens items =>
      rw [size, offset, Frame.opener, Nat.add_sub_cancel_left]
      exact Item.loose_ids_perm _ _ _
    | second opener isIf body middle isElse items =>
      rw [size, offset, Frame.opener, Nat.add_assoc, Nat.add_sub_cancel_left, IdSource.span_add,
        ← Nat.add_assoc]
      exact (Item.chained_ids_perm _ _ _).append (Item.loose_ids_perm _ _ _)
  have hle : (r.phrase frame.opener).size ≤ frame.size r := by
    cases frame <;> simp only [size, offset, Frame.opener] <;> omega
  -- the container takes the first id, then come its arguments, and then its bodies
  have hspan : ids.span n (frame.size r) = ids n :: (ids.span (n + 1) (r.phrase frame.opener).arguments.size ++
      ids.span (n + (r.phrase frame.opener).size) (frame.size r - (r.phrase frame.opener).size)) := by
    obtain ⟨k, hk⟩ := Nat.exists_eq_add_of_le hle
    rw [hk, Nat.add_sub_cancel_left, IdSource.span_add, Phrase.size, IdSource.span_succ]
    rfl
  rw [hspan, blocks, List.map_append, List.map_cons, List.map_append, id_block]
  refine List.perm_middle.trans ?_
  exact (((r.phrase frame.opener).arguments.ids_perm ids (n + 1) (ids n)).append hsettled).cons _

end Frame

/-! ### Scripts that are being read -/

namespace OpenBody

/-- The open bodies with some ids appended to the innermost. -/
def appendInner (added : List BlockId) : List OpenBody → List OpenBody
  | [] => []
  | body :: outer => { body with children := body.children ++ added } :: outer

end OpenBody

namespace Draft

/-- The number of blocks of a hat, the items below it, and some open containers. -/
def taken (hat : Line) (items : List Item) : List Frame → Nat
  | [] => (r.phrase hat).size + Item.sizes r items
  | frame :: outer => taken hat items outer + frame.size r

/-- The blocks at place `n` of a hat, the items below it, and some open containers. -/
def blocksOf (n : Nat) (hat : Line) (items : List Item) : List Frame → List Block
  | [] =>
    (r.phrase hat).before ids n ++ (r.phrase hat).block ids n ::
      Item.loose r ids (n + (r.phrase hat).size) none items
  | frame :: outer => blocksOf n hat items outer ++ frame.blocks r ids (n + taken r hat items outer)

/-- The bodies of some open containers of a script at place `n`; the innermost ends in the ids `added`. -/
def bodiesOf (n : Nat) (hat : Line) (items : List Item) : List Frame → (added : List BlockId) → List OpenBody
  | [], _ => []
  | frame :: outer, added =>
    let place := n + taken r hat items outer
    ⟨ids place, frame.line.number, frame.slot,
      Item.heads r ids (place + frame.offset r) frame.items ++ added⟩ :: bodiesOf n hat items outer [ids place]

/-- The container whose body is open, if there is one. -/
def ownerOf (n : Nat) (hat : Line) (items : List Item) : List Frame → Option BlockId
  | [] => none
  | _ :: outer => some (ids (n + taken r hat items outer))

/-- The number of blocks of a draft. -/
def size (d : Draft) : Nat :=
  taken r d.hat d.items d.frames

/-- The blocks of a draft at place `n`. -/
def blocks (n : Nat) (d : Draft) : List Block :=
  blocksOf r ids n d.hat d.items d.frames

/-- The open bodies of a draft at place `n`. -/
def bodies (n : Nat) (d : Draft) : List OpenBody :=
  bodiesOf r ids n d.hat d.items d.frames []

/-- The container whose body is open in a draft at place `n`, if there is one. -/
def owner (n : Nat) (d : Draft) : Option BlockId :=
  ownerOf r ids n d.hat d.items d.frames

variable {r ids}

theorem appendInner_bodiesOf (n : Nat) (hat : Line) (items : List Item) (frames : List Frame)
    (added added' : List BlockId) :
    OpenBody.appendInner added' (bodiesOf r ids n hat items frames added) =
      bodiesOf r ids n hat items frames (added ++ added') := by
  cases frames with
  | nil => rfl
  | cons => simp [bodiesOf, OpenBody.appendInner]

theorem size_push (item : Item) (d : Draft) : (d.push item).size r = d.size r + item.size r := by
  obtain ⟨hat, isTrigger, items, frames⟩ := d
  cases frames with
  | nil => simp [size, push, taken, Item.sizes_append, Item.sizes, Nat.add_assoc]
  | cons frame outer => simp [size, push, taken, Frame.size_push, Nat.add_assoc]

/-- The blocks of another item come behind the others. -/
theorem blocks_push (n : Nat) (item : Item) (d : Draft) :
    (d.push item).blocks r ids n =
      d.blocks r ids n ++ item.blocks r ids (n + d.size r) (item.parentIn (d.owner r ids n)) none := by
  obtain ⟨hat, isTrigger, items, frames⟩ := d
  cases frames with
  | nil => simp [blocks, push, blocksOf, size, taken, owner, ownerOf, Item.loose_append, Item.loose,
      Nat.add_assoc]
  | cons frame outer => simp [blocks, push, blocksOf, size, taken, owner, ownerOf, Frame.blocks_push,
      Nat.add_assoc]

/-- Another item belongs to the innermost open body. -/
theorem bodies_push (n : Nat) (item : Item) (d : Draft) :
    (d.push item).bodies r ids n = OpenBody.appendInner [ids (n + d.size r)] (d.bodies r ids n) := by
  obtain ⟨hat, isTrigger, items, frames⟩ := d
  cases frames with
  | nil => rfl
  | cons frame outer =>
    cases frame <;>
      simp [bodies, push, Frame.push, bodiesOf, OpenBody.appendInner, size, taken, Frame.size, Frame.offset,
        Frame.items, Frame.line, Frame.slot, Item.heads_append, Item.heads, Nat.add_assoc]

theorem size_enter {opener : Line} (opens : opener.kind.opens = true) (d : Draft) :
    (d.enter opener opens).size r = d.size r + (r.phrase opener).size :=
  rfl

theorem blocks_enter (n : Nat) {opener : Line} (opens : opener.kind.opens = true) (d : Draft) :
    (d.enter opener opens).blocks r ids n =
      d.blocks r ids n ++ (r.phrase opener).term.blocks ids (n + d.size r) none :=
  rfl

theorem bodies_enter (n : Nat) {opener : Line} (opens : opener.kind.opens = true) (d : Draft) :
    (d.enter opener opens).bodies r ids n =
      ⟨ids (n + d.size r), opener.number, Script.firstBody, []⟩ ::
        OpenBody.appendInner [ids (n + d.size r)] (d.bodies r ids n) := by
  rw [bodies, bodies, appendInner_bodiesOf]
  rfl

theorem Step.size_le {d d' : Draft} {line : Line} (h : Step d line d') : d.size r ≤ d'.size r := by
  cases h with
  | statement => rw [size_push]; omega
  | enter => rw [size_enter]; omega
  | «otherwise» =>
    simp only [size, taken, Frame.size, Frame.offset, Frame.items]
    omega
  | close =>
    rw [size_push, Frame.size_closed]
    exact Nat.le_refl _

theorem ids_perm_blocksOf (n : Nat) (hat : Line) (items : List Item) (frames : List Frame) :
    ((blocksOf r ids n hat items frames).map Block.id).Perm (ids.span n (taken r hat items frames)) := by
  induction frames with
  | nil =>
    rw [blocksOf, taken, IdSource.span_add, Phrase.size, IdSource.span_succ, List.map_append, List.map_cons]
    refine List.perm_middle.trans ?_
    exact (((r.phrase hat).arguments.ids_perm ids (n + 1) (ids n)).append
      (Item.loose_ids_perm _ none items)).cons _
  | cons frame outer ih =>
    rw [blocksOf, taken, IdSource.span_add, List.map_append]
    exact ih.append (frame.ids_perm _)

/-- The ids of the blocks of a draft are the ids that it takes. -/
theorem ids_perm (n : Nat) (d : Draft) : ((d.blocks r ids n).map Block.id).Perm (ids.span n (d.size r)) :=
  ids_perm_blocksOf n d.hat d.items d.frames

end Draft

end BlockScript
