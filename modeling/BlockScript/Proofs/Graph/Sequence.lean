import BlockScript.Proofs.Graph.Parents
import Mathlib.Order.WellFoundedSet

/-!
# Sequences of blocks

`Script.Follows` is the way that the links to the next block take, without any bound on its length.
`Script.chain` gives its blocks whenever it ends (`Script.chain_eq_ok_iff`): no entry comes up twice on a way that ends,
so that there is room for it in the steps that `Script.chain` takes.

In a tree no links run in a circle (`Script.IsTree.not_transGen_isFollowedBy`), wherever they hang: a block of a circle
has its only edge from the circle, and so no way leads there from the top.  Hence all sequences of a valid script end
(`Validity.chain_of_check`).
-/

namespace BlockScript

open Relation (TransGen ReflTransGen)

theorem Block.mem_targets_of_mem_inputs {b : Block} {slot : String} {kind : InputKind} {target : BlockId}
    (h : Input.block slot kind target ∈ b.inputs) : target ∈ b.targets :=
  mem_targets_of_mem_edges (List.mem_append_left _ (List.mem_filterMap.2 ⟨_, h, rfl⟩))

namespace Script

/-- The links to the next block lead from the start over these entries to an end. -/
inductive Follows (s : Script) : Option BlockId → Arena → Prop where
  | stop : Follows s none []
  | step {id : BlockId} {b : Block} {rest : Arena} (found : s.blocks.get? id = some b)
      (onward : Follows s b.next rest) : Follows s (some id) ((id, b) :: rest)

/-- The block under a key links to the next one. -/
def IsFollowedBy (s : Script) (id follower : BlockId) : Prop :=
  (s.blocks.get? id).bind Block.next = some follower

variable {s : Script} {start : Option BlockId} {id : BlockId} {way way' : Arena}

namespace Follows

theorem unique (h : s.Follows start way) (h' : s.Follows start way') : way = way' := by
  induction h generalizing way' with
  | stop =>
    cases h'
    rfl
  | step found _ ih =>
    obtain _ | ⟨found', onward'⟩ := h'
    obtain rfl := Option.some.inj (found.symm.trans found')
    rw [ih onward']

/-- The rest of a way from one of its entries on. -/
theorem exists_of_mem_keys (h : s.Follows start way) (hid : id ∈ way.keys) :
    ∃ rest, s.Follows (some id) rest ∧ rest.length ≤ way.length := by
  induction h with
  | stop => cases hid
  | @step first b rest found onward ih =>
    rcases List.mem_cons.1 hid with rfl | hid
    · exact ⟨_, .step found onward, Nat.le_refl _⟩
    · obtain ⟨rest', hrest', hle⟩ := ih hid
      exact ⟨rest', hrest', Nat.le_succ_of_le hle⟩

/-- A way that ends comes to no entry twice. -/
theorem nodup_keys (h : s.Follows start way) : way.keys.Nodup := by
  induction h with
  | stop => exact List.nodup_nil
  | @step id b rest found onward ih =>
    refine List.nodup_cons.2 ⟨fun hid => ?_, ih⟩
    -- the way from the second visit on would be shorter than the same way from the first
    obtain ⟨rest', hrest', hle⟩ := onward.exists_of_mem_keys hid
    rw [← (Follows.step found onward).unique hrest', List.length_cons] at hle
    omega

theorem subset (h : s.Follows start way) : way ⊆ s.blocks := by
  induction h with
  | stop => exact List.nil_subset _
  | step found _ ih => exact List.cons_subset.2 ⟨Arena.mem_of_get?_eq_some found, ih⟩

/-- A way that ends is no longer than the script. -/
theorem length_le (h : s.Follows start way) : way.length ≤ s.blocks.length := by
  have hkeys : way.keys ⊆ s.blocks.keys := List.map_subset _ h.subset
  simpa [Arena.keys] using (List.subperm_of_subset h.nodup_keys hkeys).length_le

theorem map_id_blocks (hs : s.IsStored) (h : s.Follows start way) : way.blocks.map Block.id = way.keys := by
  unfold Arena.blocks Arena.keys
  rw [List.map_map]
  exact List.map_congr_left fun entry hentry => hs.id_eq_key entry (h.subset hentry)

theorem chainWithin_eq (h : s.Follows start way) {steps : Nat} (hsteps : way.length ≤ steps) :
    s.chainWithin steps start = .ok way.blocks := by
  induction h generalizing steps with
  | stop => cases steps <;> rfl
  | @step id b rest found _ ih =>
    obtain ⟨steps, rfl⟩ := Nat.exists_eq_succ_of_ne_zero (Nat.ne_of_gt (Nat.lt_of_lt_of_le (Nat.succ_pos _) hsteps))
    rw [chainWithin, block, found]
    show (s.chainWithin steps b.next >>= fun rest => pure (b :: rest)) = _
    rw [ih (Nat.le_of_succ_le_succ hsteps)]
    rfl

end Follows

theorem exists_follows_of_chainWithin {steps : Nat} {blocks : List Block}
    (h : s.chainWithin steps start = .ok blocks) : ∃ way, s.Follows start way ∧ way.blocks = blocks := by
  induction steps generalizing start blocks with
  | zero =>
    cases start with
    | none =>
      cases h
      exact ⟨[], .stop, rfl⟩
    | some id => cases h
  | succ steps ih =>
    cases start with
    | none =>
      cases h
      exact ⟨[], .stop, rfl⟩
    | some id =>
      rw [chainWithin, block] at h
      cases found : s.blocks.get? id with
      | none =>
        rw [found] at h
        cases h
      | some b =>
        rw [found] at h
        replace h : (s.chainWithin steps b.next >>= fun rest => pure (b :: rest)) = .ok blocks := h
        cases hrest : s.chainWithin steps b.next with
        | error fault =>
          rw [hrest] at h
          cases h
        | ok rest =>
          rw [hrest] at h
          cases h
          obtain ⟨way, onward, rfl⟩ := ih hrest
          exact ⟨(id, b) :: way, .step found onward, rfl⟩

/-- The number of steps that a sequence is given is no bound on it: its blocks are given exactly if it ends. -/
theorem chain_eq_ok_iff {blocks : List Block} :
    s.chain start = .ok blocks ↔ ∃ way, s.Follows start way ∧ way.blocks = blocks := by
  constructor
  · exact exists_follows_of_chainWithin
  · rintro ⟨way, h, rfl⟩
    exact h.chainWithin_eq (Nat.le_succ_of_le h.length_le)

/-- Where no links run in a circle or leave the script, all sequences end. -/
theorem exists_follows (hcircle : ∀ id, ¬TransGen s.IsFollowedBy id id)
    (hkeys : ∀ id follower, s.IsFollowedBy id follower → follower ∈ s.blocks.keys) (hid : id ∈ s.blocks.keys) :
    ∃ way, s.Follows (some id) way := by
  have : IsStrictOrder BlockId (fun id above => TransGen s.IsFollowedBy above id) :=
    { irrefl := hcircle, trans := fun _ _ _ h h' => h'.trans h }
  have hfounded : {id | id ∈ s.blocks.keys}.WellFoundedOn (fun id above => TransGen s.IsFollowedBy above id) :=
    (List.finite_toSet s.blocks.keys).wellFoundedOn
  -- a sequence ends if the one from its second block does
  refine hfounded.induction (P := fun id => ∃ way, s.Follows (some id) way) hid fun id hid ih => ?_
  obtain ⟨b, found⟩ := Arena.exists_get?_of_mem_keys hid
  cases hnext : b.next with
  | none => exact ⟨[(id, b)], .step found (hnext ▸ .stop)⟩
  | some follower =>
    have hfollowed : s.IsFollowedBy id follower := by
      rw [IsFollowedBy, found]
      exact hnext
    obtain ⟨way, onward⟩ := ih follower (hkeys id follower hfollowed) (.single hfollowed)
    exact ⟨(id, b) :: way, .step found (hnext ▸ onward)⟩

theorem mem_targetsOf_of_isFollowedBy {follower : BlockId} (h : s.IsFollowedBy id follower) :
    follower ∈ Validity.targetsOf s id := by
  obtain ⟨b, found, hnext⟩ := Option.bind_eq_some_iff.1 h
  rw [Validity.targetsOf, found]
  exact Block.mem_targets_of_mem_edges (Block.mem_edges_of_next hnext)

namespace IsTree

variable (hs : s.IsStored) (h : s.IsTree)

include hs h

/-- An edge leads to a block of the script. -/
theorem mem_keys_of_mem_targetsOf {target : BlockId} (htarget : target ∈ Validity.targetsOf s id) :
    target ∈ s.blocks.keys := by
  obtain ⟨c, found, -⟩ := Option.bind_eq_some_iff.1 (h.hasParent_of_mem_targetsOf hs htarget)
  exact Arena.mem_keys_of_get?_eq_some found

/-- No edge leads to the block on top. -/
theorem top_notMem_targetsOf : s.top ∉ Validity.targetsOf s id := by
  intro htop
  unfold Validity.targetsOf at htop
  cases found : s.blocks.get? id with
  | none => simp [found] at htop
  | some b =>
    rw [found] at htop
    exact List.count_eq_zero.1 h.count_top (List.mem_flatMap.2 ⟨b, (hs.get?_eq_some_iff.1 found).1, htop⟩)

/-- The block in front of a block of a circle lies on the circle, so the way back to the top never leaves it. -/
theorem not_transGen_isFollowedBy_of_reaches (hid : Validity.Reaches s id) : ¬TransGen s.IsFollowedBy id id := by
  induction hid with
  | top =>
    intro hcircle
    obtain ⟨last, -, hlast⟩ := TransGen.tail'_iff.1 hcircle
    exact h.top_notMem_targetsOf hs (mem_targetsOf_of_isFollowedBy hlast)
  | @edge id target _ htarget ih =>
    intro hcircle
    obtain ⟨last, hback, hlast⟩ := TransGen.tail'_iff.1 hcircle
    have hparent := h.hasParent_of_mem_targetsOf hs htarget
    obtain rfl : last = id :=
      Option.some.inj ((h.hasParent_of_mem_targetsOf hs (mem_targetsOf_of_isFollowedBy hlast)).symm.trans hparent)
    exact ih (.head' hlast hback)

/-- No links to the next block run in a circle. -/
theorem not_transGen_isFollowedBy (id : BlockId) : ¬TransGen s.IsFollowedBy id id := by
  intro hcircle
  obtain ⟨follower, hfollowed, -⟩ := TransGen.head'_iff.1 hcircle
  obtain ⟨b, found, -⟩ := Option.bind_eq_some_iff.1 hfollowed
  have hid : id ∈ s.blocks.keys := Arena.mem_keys_of_get?_eq_some found
  exact h.not_transGen_isFollowedBy_of_reaches hs (h.reaches id hid) hcircle

/-- The sequence from a block of the script ends, and no block is in it twice. -/
theorem exists_chain (hstart : ∀ id, start = some id → id ∈ s.blocks.keys) :
    ∃ way, s.Follows start way ∧ s.chain start = .ok way.blocks ∧ (way.blocks.map Block.id).Nodup := by
  obtain ⟨way, hway⟩ : ∃ way, s.Follows start way := by
    cases start with
    | none => exact ⟨[], .stop⟩
    | some id =>
      refine exists_follows (h.not_transGen_isFollowedBy hs) (fun id follower hfollowed => ?_) (hstart id rfl)
      exact h.mem_keys_of_mem_targetsOf hs (mem_targetsOf_of_isFollowedBy hfollowed)
  refine ⟨way, hway, chain_eq_ok_iff.2 ⟨way, hway, rfl⟩, ?_⟩
  rw [hway.map_id_blocks hs]
  exact hway.nodup_keys

/-- The sequence in the body of a container ends, and no block is in it twice. -/
theorem exists_substack (hid : id ∈ s.blocks.keys) (slot : String) :
    ∃ blocks, s.substack id slot = .ok blocks ∧ (blocks.map Block.id).Nodup := by
  obtain ⟨b, found⟩ := Arena.exists_get?_of_mem_keys hid
  have hblock : s.block id = .ok b := by
    rw [block, found, Option.elim_some]
  simp only [substack, hblock, bind, Except.bind]
  split
  · rename_i held kind target hinput
    have htarget : target ∈ Validity.targetsOf s id := by
      rw [Validity.targetsOf, found]
      exact Block.mem_targets_of_mem_inputs (List.mem_of_find?_eq_some hinput)
    have hstart : ∀ id, some target = some id → id ∈ s.blocks.keys := by
      rintro _ ⟨⟩
      exact h.mem_keys_of_mem_targetsOf hs htarget
    obtain ⟨way, -, hchain, hnodup⟩ := h.exists_chain hs hstart
    exact ⟨way.blocks, hchain, hnodup⟩
  · exact ⟨[], rfl, List.nodup_nil⟩

/-- The sequence below the block on top ends, and no block is in it twice. -/
theorem exists_body : ∃ blocks, s.body = .ok blocks ∧ (blocks.map Block.id).Nodup := by
  obtain ⟨b, found⟩ := Arena.exists_get?_of_mem_keys h.top_mem
  have hstart : ∀ id, b.next = some id → id ∈ s.blocks.keys := by
    intro id hnext
    have hfollowed : s.IsFollowedBy s.top id := by
      rw [IsFollowedBy, found]
      exact hnext
    exact h.mem_keys_of_mem_targetsOf hs (mem_targetsOf_of_isFollowedBy hfollowed)
  obtain ⟨way, -, hchain, hnodup⟩ := h.exists_chain hs hstart
  refine ⟨way.blocks, ?_, hnodup⟩
  rw [body, topBlock, block, found]
  exact hchain

end IsTree

end Script

namespace Validity

/-- Following the links from any block of a valid script ends, at no missing block, and meets no block twice.  So do
the body of the script and all bodies of its containers. -/
theorem chain_of_check {s : Script} (hs : s.IsStored) (h : check s = .ok ()) :
    (∀ id ∈ s.blocks.keys, ∃ way, s.Follows (some id) way ∧ s.chain (some id) = .ok way.blocks ∧
      (way.blocks.map Block.id).Nodup) ∧
    (∃ blocks, s.body = .ok blocks ∧ (blocks.map Block.id).Nodup) ∧
    ∀ id ∈ s.blocks.keys, ∀ slot, ∃ blocks, s.substack id slot = .ok blocks ∧ (blocks.map Block.id).Nodup := by
  have htree := (check_eq_ok_iff_isTree hs).1 h
  refine ⟨fun id hid => ?_, htree.exists_body hs, fun id hid slot => htree.exists_substack hs hid slot⟩
  exact htree.exists_chain hs fun _ heq => Option.some.inj heq ▸ hid

/-- A loop with two commands in its body, below a hat. -/
def looping : Script :=
  ⟨"hat", Arena.ofBlocks
    [⟨"hat", "event_whenflagclicked", .hat, [], [], none, some "loop", false, any_shape⟩,
      ⟨"show", "looks_show", .command, [], [], some "loop", some "hide", false, any_shape⟩,
      ⟨"hide", "looks_hide", .command, [], [], some "show", none, false, any_shape⟩,
      ⟨"loop", "control_forever", .container, [.block "SUBSTACK" .substack "show"], [], some "hat", none, false,
        any_shape⟩]⟩

/-- The links lead from the first command of the loop to the second one, where the sequence ends. -/
theorem chain_of_check_loop : looping.IsStored ∧ check looping = .ok () ∧ "show" ∈ looping.blocks.keys ∧
    ∃ way, looping.Follows (some "show") way ∧ looping.chain (some "show") = .ok way.blocks ∧
      way.blocks.map Block.id = ["show", "hide"] ∧ (way.blocks.map Block.id).Nodup := by
  have hs : looping.IsStored := ⟨by decide, by decide⟩
  have hcheck : check looping = .ok () := by decide +kernel
  have hshow : "show" ∈ looping.blocks.keys := by decide
  obtain ⟨way, hway, hchain, hnodup⟩ := (chain_of_check hs hcheck).1 "show" hshow
  have hids : (looping.chain (some "show")).map (List.map Block.id) = .ok ["show", "hide"] := rfl
  rw [hchain] at hids
  exact ⟨hs, hcheck, hshow, way, hway, hchain, Except.ok.inj hids, hnodup⟩

end Validity

end BlockScript
