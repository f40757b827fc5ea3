import BlockScript.Graph.Validity
import BlockScript.Proofs.Graph.Arena

/-!
# Forests of blocks

`Forest parent roots blocks` says how `blocks` are put together: they are the trees below the ids `roots`, and the
blocks at the roots have the given parent.  The children of a block are the ends of all its edges, so a block of a
body is a child of the one in front of it.

* `Forest.ids_perm`: each block is a root or the end of exactly one edge;
* `Forest.parent_of_target`, `Forest.owner_of_mem`: edges and parents agree;
* `Forest.closed`: what holds of the roots and is handed down along edges holds of all blocks.
-/

namespace BlockScript

/-- If a block is followed by another one, it is no shadow, and the other one is among the blocks below it and is
neither a shadow nor a hat. -/
def Block.StacksOn (b : Block) (below : List Block) : Prop :=
  ∀ id, b.next = some id → b.shadow = false ∧ ∃ c ∈ below, c.id = id ∧ c.shadow = false ∧ c.isTop = false

theorem Block.StacksOn.mono {b : Block} {blocks blocks' : List Block} (hsub : blocks ⊆ blocks')
    (h : b.StacksOn blocks) : b.StacksOn blocks' := by
  intro id hid
  obtain ⟨hs, c, hc, e⟩ := h id hid
  exact ⟨hs, c, hsub hc, e⟩

/-- The blocks are the trees below the roots, whose blocks have the given parent. -/
inductive Forest : Option BlockId → List BlockId → List Block → Prop where
  | nil (parent : Option BlockId) : Forest parent [] []
  | node {b : Block} {below : List Block} (stacked : b.StacksOn below)
      (children : Forest (some b.id) b.targets below) : Forest b.parent [b.id] (b :: below)
  | append {parent : Option BlockId} {roots roots' : List BlockId} {blocks blocks' : List Block}
      (left : Forest parent roots blocks) (right : Forest parent roots' blocks') :
      Forest parent (roots ++ roots') (blocks ++ blocks')
  | perm {parent : Option BlockId} {roots : List BlockId} {blocks blocks' : List Block}
      (order : blocks.Perm blocks') (forest : Forest parent roots blocks) : Forest parent roots blocks'

namespace Forest

variable {parent : Option BlockId} {roots : List BlockId} {blocks : List Block}

/-- Each block is a root or the end of exactly one edge, and there are no other roots or ends. -/
theorem ids_perm (h : Forest parent roots blocks) :
    (blocks.map Block.id).Perm (roots ++ blocks.flatMap Block.targets) := by
  induction h with
  | nil => exact List.Perm.refl _
  | node _ _ ih => exact ih.cons _
  | @append _ roots roots' blocks blocks' _ _ ih ih' =>
    -- the ends of the first part's edges and the roots of the second part change places
    rw [List.map_append, List.flatMap_append]
    refine (ih.append ih').trans ?_
    rw [List.append_assoc, List.append_assoc]
    refine List.Perm.append_left _ ?_
    rw [← List.append_assoc, ← List.append_assoc]
    exact List.Perm.append_right _ List.perm_append_comm
  | perm order _ ih =>
    exact (order.map _).symm.trans (ih.trans (List.Perm.append_left _ (order.flatMap_right _)))

/-- The blocks at the roots have the parent of the forest. -/
theorem parent_of_root (h : Forest parent roots blocks) :
    ∀ id ∈ roots, ∃ b ∈ blocks, b.id = id ∧ b.parent = parent := by
  induction h with
  | nil => intro id hid; cases hid
  | @node b _ _ _ _ =>
    intro id hid
    exact ⟨b, by simp, (List.mem_singleton.1 hid).symm, rfl⟩
  | append _ _ ih ih' =>
    intro id hid
    rcases List.mem_append.1 hid with hid | hid
    · obtain ⟨b, hb, e⟩ := ih id hid
      exact ⟨b, List.mem_append_left _ hb, e⟩
    · obtain ⟨b, hb, e⟩ := ih' id hid
      exact ⟨b, List.mem_append_right _ hb, e⟩
  | perm order _ ih =>
    intro id hid
    obtain ⟨b, hb, e⟩ := ih id hid
    exact ⟨b, order.subset hb, e⟩

/-- What a block has among the blocks of its tree, and keeps among more blocks, each block of a forest has. -/
private theorem forall_mem {Q : List Block → Block → Prop} (hmono : ∀ {l l' b}, l ⊆ l' → Q l b → Q l' b)
    (hnode : ∀ {b below}, b.StacksOn below → Forest (some b.id) b.targets below → Q (b :: below) b)
    (h : Forest parent roots blocks) : ∀ b ∈ blocks, Q blocks b := by
  induction h with
  | nil => intro b hb; cases hb
  | node stacked children ih =>
    intro b hb
    rcases List.mem_cons.1 hb with rfl | hb
    · exact hnode stacked children
    · exact hmono (List.subset_cons_self _ _) (ih b hb)
  | append _ _ ih ih' =>
    intro b hb
    rcases List.mem_append.1 hb with hb | hb
    · exact hmono (List.subset_append_left _ _) (ih b hb)
    · exact hmono (List.subset_append_right _ _) (ih' b hb)
  | perm order _ ih =>
    intro b hb
    exact hmono order.subset (ih b (order.symm.subset hb))

/-- An edge leads to a block whose parent is the block that it comes from. -/
theorem parent_of_target (h : Forest parent roots blocks) :
    ∀ b ∈ blocks, ∀ id ∈ b.targets, ∃ c ∈ blocks, c.id = id ∧ c.parent = some b.id := by
  refine h.forall_mem (Q := fun l b => ∀ id ∈ b.targets, ∃ c ∈ l, c.id = id ∧ c.parent = some b.id) ?_ ?_
  · intro l l' b hl hb id hid
    obtain ⟨c, hc, e⟩ := hb id hid
    exact ⟨c, hl hc, e⟩
  · intro b below _ children id hid
    obtain ⟨c, hc, e⟩ := children.parent_of_root id hid
    exact ⟨c, List.mem_cons_of_mem _ hc, e⟩

/-- A block is a root, or its parent is a block with an edge to it. -/
theorem owner_of_mem (h : Forest parent roots blocks) :
    ∀ b ∈ blocks, (b.id ∈ roots ∧ b.parent = parent) ∨
      ∃ a ∈ blocks, b.parent = some a.id ∧ b.id ∈ a.targets := by
  induction h with
  | nil => intro b hb; cases hb
  | @node a _ _ _ ih =>
    intro b hb
    rcases List.mem_cons.1 hb with rfl | hb
    · exact .inl ⟨by simp, rfl⟩
    · rcases ih b hb with ⟨hroot, e⟩ | ⟨c, hc, e⟩
      · exact .inr ⟨a, by simp, e, hroot⟩
      · exact .inr ⟨c, List.mem_cons_of_mem _ hc, e⟩
  | append _ _ ih ih' =>
    intro b hb
    rcases List.mem_append.1 hb with hb | hb
    · rcases ih b hb with ⟨hroot, e⟩ | ⟨a, ha, e⟩
      · exact .inl ⟨List.mem_append_left _ hroot, e⟩
      · exact .inr ⟨a, List.mem_append_left _ ha, e⟩
    · rcases ih' b hb with ⟨hroot, e⟩ | ⟨a, ha, e⟩
      · exact .inl ⟨List.mem_append_right _ hroot, e⟩
      · exact .inr ⟨a, List.mem_append_right _ ha, e⟩
  | perm order _ ih =>
    intro b hb
    rcases ih b (order.symm.subset hb) with hroot | ⟨a, ha, e⟩
    · exact .inl hroot
    · exact .inr ⟨a, order.subset ha, e⟩

/-- Only a block that is no shadow is followed by another one, and that is neither a shadow nor a hat. -/
theorem stacksOn_of_mem (h : Forest parent roots blocks) : ∀ b ∈ blocks, b.StacksOn blocks :=
  h.forall_mem (Q := fun l b => b.StacksOn l) Block.StacksOn.mono
    fun stacked _ => stacked.mono (List.subset_cons_self _ _)

/-- What holds of the roots, and of the ends of the edges from a block of which it holds, holds of all blocks. -/
theorem closed (h : Forest parent roots blocks) {P : BlockId → Prop} (hroots : ∀ id ∈ roots, P id)
    (hstep : ∀ b ∈ blocks, P b.id → ∀ id ∈ b.targets, P id) : ∀ b ∈ blocks, P b.id := by
  induction h with
  | nil => intro b hb; cases hb
  | @node a _ _ _ ih =>
    have ha : P a.id := hroots a.id (by simp)
    intro b hb
    rcases List.mem_cons.1 hb with rfl | hb
    · exact ha
    · exact ih (hstep a (by simp) ha) (fun c hc => hstep c (List.mem_cons_of_mem _ hc)) b hb
  | append _ _ ih ih' =>
    intro b hb
    rcases List.mem_append.1 hb with hb | hb
    · exact ih (fun id hid => hroots id (List.mem_append_left _ hid))
        (fun c hc => hstep c (List.mem_append_left _ hc)) b hb
    · exact ih' (fun id hid => hroots id (List.mem_append_right _ hid))
        (fun c hc => hstep c (List.mem_append_right _ hc)) b hb
  | perm order _ ih =>
    intro b hb
    exact ih hroots (fun c hc => hstep c (order.subset hc)) b (order.symm.subset hb)

end Forest

end BlockScript
