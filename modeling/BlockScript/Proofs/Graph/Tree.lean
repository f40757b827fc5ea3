import BlockScript.Graph.Validity
import BlockScript.Proofs.Graph.Arena

/-!
# Trees of blocks

`Script.IsTree` says that the blocks of a script form a tree below its only hat.  `Validity.check` accepts exactly
these scripts (`Validity.check_eq_ok_iff_isTree`).  Each of its checks is one part of a tree; the last one, the walk
over the blocks, succeeds exactly if every block but the one on top is the end of one edge and can be reached
(`Validity.checkReach_eq_ok_iff`), whatever circles the edges run in.
-/

namespace BlockScript

/-- The blocks of a script stand under their own ids, and no two of them under the same one. -/
structure Script.IsStored (s : Script) : Prop where
  nodup : s.blocks.keys.Nodup
  id_eq_key : ∀ entry ∈ s.blocks, entry.2.id = entry.1

/-- The ends of all edges of a script, as often as edges lead there. -/
def Script.ends (s : Script) : List BlockId :=
  s.blocks.blocks.flatMap Block.targets

namespace Validity

/-- The blocks of a script that can be reached from the one on top. -/
inductive Reaches (s : Script) : BlockId → Prop where
  | top : Reaches s s.top
  | edge {id target : BlockId} (source : Reaches s id) (mem : target ∈ targetsOf s id) : Reaches s target

end Validity

/-- The blocks of a script form a tree below the one on top. -/
structure Script.IsTree (s : Script) : Prop where
  top_mem : s.top ∈ s.blocks.keys
  /-- The block on top is the only hat. -/
  isTop_iff : ∀ b ∈ s.blocks.blocks, b.isTop = true ↔ b.id = s.top
  /-- Edges lead to blocks whose parent is the block that they come from. -/
  target : ∀ b ∈ s.blocks.blocks, ∀ id ∈ b.targets, ∃ c, s.blocks.get? id = some c ∧ c.parent = some b.id
  /-- No edge leads to the block on top. -/
  count_top : s.ends.count s.top = 0
  /-- One edge leads to each other block. -/
  count_other : ∀ id ∈ s.blocks.keys, id ≠ s.top → s.ends.count id = 1
  /-- Shadows neither follow other blocks nor are followed by them. -/
  shadow : ∀ b ∈ s.blocks.blocks, ∀ id, b.next = some id →
    b.shadow = false ∧ ∀ c, s.blocks.get? id = some c → c.shadow = false
  parent_top : ∀ b, s.blocks.get? s.top = some b → ∀ parent, b.parent = some parent → parent ∈ s.blocks.keys
  reaches : ∀ id ∈ s.blocks.keys, Validity.Reaches s id

namespace Script.IsStored

variable {s : Script} (h : s.IsStored)

include h

theorem eq_ofBlocks : s.blocks = Arena.ofBlocks s.blocks.blocks := by
  unfold Arena.ofBlocks Arena.blocks
  rw [List.map_map]
  refine (List.map_id s.blocks).symm.trans (List.map_congr_left fun entry hentry => ?_)
  exact Prod.ext (h.id_eq_key entry hentry).symm rfl

theorem map_id : s.blocks.blocks.map Block.id = s.blocks.keys := by
  conv => rhs; rw [h.eq_ofBlocks]
  exact (Arena.keys_ofBlocks _).symm

theorem nodup_ids : (s.blocks.blocks.map Block.id).Nodup := by
  rw [h.map_id]
  exact h.nodup

theorem get?_eq_some_iff {id : BlockId} {b : Block} :
    s.blocks.get? id = some b ↔ b ∈ s.blocks.blocks ∧ b.id = id := by
  rw [h.eq_ofBlocks, Arena.blocks_ofBlocks]
  exact Arena.get?_ofBlocks_eq_some_iff h.nodup_ids

theorem mem_keys_of_mem {b : Block} (hb : b ∈ s.blocks.blocks) : b.id ∈ s.blocks.keys := by
  rw [← h.map_id]
  exact List.mem_map.2 ⟨b, hb, rfl⟩

theorem targetsOf_eq {b : Block} (hb : b ∈ s.blocks.blocks) : Validity.targetsOf s b.id = b.targets := by
  unfold Validity.targetsOf
  rw [h.get?_eq_some_iff.2 ⟨hb, rfl⟩]
  rfl

theorem flatMap_targetsOf : s.blocks.keys.flatMap (Validity.targetsOf s) = s.ends := by
  rw [← h.map_id, List.flatMap_map]
  exact List.flatMap_congr fun b hb => h.targetsOf_eq hb

end Script.IsStored

/-! ### Edges -/

namespace Block

theorem mem_targets_of_mem_edges {b : Block} {edge : Edge × BlockId} (h : edge ∈ b.edges) : edge.2 ∈ b.targets :=
  List.mem_map.2 ⟨edge, h, rfl⟩

theorem next_of_mem_edges {b : Block} {edge : Edge × BlockId} (h : edge ∈ b.edges) (hnext : edge.1 = .next) :
    b.next = some edge.2 := by
  rcases List.mem_append.1 h with h | h
  · obtain ⟨input, -, hinput⟩ := List.mem_filterMap.1 h
    obtain ⟨target, -, rfl⟩ := Option.map_eq_some_iff.1 hinput
    cases hnext
  · cases hb : b.next with
    | none => simp [hb] at h
    | some id =>
      rw [hb] at h
      obtain rfl : edge = (.next, id) := by simpa using h
      rfl

theorem mem_edges_of_next {b : Block} {id : BlockId} (h : b.next = some id) : (Edge.next, id) ∈ b.edges := by
  rw [edges, h]
  exact List.mem_append_right _ List.mem_cons_self

end Block

namespace Validity

variable {s : Script}

theorem forM_eq_ok_iff {α ε : Type} {f : α → Except ε Unit} {l : List α} :
    l.forM f = .ok () ↔ ∀ a ∈ l, f a = .ok () := by
  induction l with
  | nil => simp [pure, Except.pure]
  | cons a l ih =>
    rw [List.forall_mem_cons, ← ih]
    show (f a >>= fun _ => l.forM f) = .ok () ↔ _
    rcases h : f a with e | u <;> simp [bind, Except.bind]

/-! ### The walk -/

/-- If a walk comes to an end, each block that it visited was pending or the end of one edge from a block that it
visited, and no block was so twice. -/
theorem exists_visited_of_walk {unvisited pending left : List BlockId} (h : walk s unvisited pending = .ok left) :
    ∃ visited, unvisited.Perm (visited ++ left) ∧ visited.Perm (pending ++ visited.flatMap (targetsOf s)) ∧
      ((∀ id ∈ pending, Reaches s id) → ∀ id ∈ visited, Reaches s id) := by
  induction unvisited, pending using walk.induct s with
  | case1 unvisited =>
    unfold walk at h
    obtain rfl := Except.ok.inj h
    exact ⟨[], List.Perm.refl _, List.Perm.refl _, fun _ _ hid => nomatch hid⟩
  | case2 unvisited id pending hid ih =>
    unfold walk at h
    rw [dif_pos hid] at h
    obtain ⟨visited, hleft, hvisited, hreaches⟩ := ih h
    refine ⟨id :: visited, (List.perm_cons_erase hid).trans (hleft.cons id), ?_, fun hpending => ?_⟩
    · -- the ends of the edges from `id` were pending when the rest was visited
      rw [List.flatMap_cons, List.cons_append]
      refine (hvisited.trans ?_).cons id
      rw [← List.append_assoc]
      refine List.Perm.append_right _ (List.perm_append_comm.trans (List.Perm.append_left _ ?_))
      exact List.reverse_perm _
    · obtain ⟨hhead, hrest⟩ := List.forall_mem_cons.1 hpending
      refine List.forall_mem_cons.2 ⟨hhead, hreaches fun target htarget => ?_⟩
      rcases List.mem_append.1 htarget with htarget | htarget
      · exact .edge hhead (List.mem_reverse.1 htarget)
      · exact hrest target htarget
  | case3 unvisited id pending hid =>
    unfold walk at h
    rw [dif_neg hid] at h
    cases h

/-- A walk whose pending blocks, together with the ends of the edges from the unvisited ones, are the unvisited
blocks comes to an end, and the blocks left over then own each other. -/
theorem walk_of_perm (s : Script) (unvisited pending : List BlockId)
    (h : unvisited.Perm (pending ++ unvisited.flatMap (targetsOf s))) :
    ∃ left, walk s unvisited pending = .ok left ∧ left.Sublist unvisited ∧
      left.Perm (left.flatMap (targetsOf s)) := by
  induction unvisited, pending using walk.induct s with
  | case1 unvisited =>
    unfold walk
    exact ⟨unvisited, rfl, List.Sublist.refl _, h⟩
  | case2 unvisited id pending hid ih =>
    have herase := List.perm_cons_erase hid
    -- the visited block leaves the unvisited ones, and the ends of its edges become pending
    have hinv : (unvisited.erase id).Perm
        (((targetsOf s id).reverse ++ pending) ++ (unvisited.erase id).flatMap (targetsOf s)) := by
      have h' := herase.symm.trans (h.trans (List.Perm.append_left _ (herase.flatMap_right _)))
      rw [List.cons_append, List.flatMap_cons] at h'
      refine (List.Perm.cons_inv h').trans ?_
      rw [← List.append_assoc]
      refine List.Perm.append_right _ (List.perm_append_comm.trans ?_)
      exact List.Perm.append_right _ (List.reverse_perm _).symm
    obtain ⟨left, hw, hsub, hown⟩ := ih hinv
    refine ⟨left, ?_, hsub.trans List.erase_sublist, hown⟩
    unfold walk
    rw [dif_pos hid, hw]
  | case3 unvisited id pending hid =>
    exact absurd (h.symm.subset (by simp)) hid

/-- In a list without repetitions whose images do not overlap, only one member has a given element in its image. -/
private theorem eq_of_mem_of_nodup_flatMap {α β : Type} {f : α → List β} {l : List α}
    (h : (l.flatMap f).Nodup) {a a' : α} {b : β} (ha : a ∈ l) (ha' : a' ∈ l) (hb : b ∈ f a) (hb' : b ∈ f a') :
    a = a' := by
  induction l with
  | nil => cases ha
  | cons c l ih =>
    rw [List.flatMap_cons, List.nodup_append] at h
    obtain ⟨-, hl, hdisj⟩ := h
    have hne : ∀ x ∈ l, b ∈ f x → b ∉ f c := fun x hx hbx hbc =>
      hdisj b hbc b (List.mem_flatMap.2 ⟨x, hx, hbx⟩) rfl
    rcases List.mem_cons.1 ha with rfl | hal
    · rcases List.mem_cons.1 ha' with rfl | hal'
      · rfl
      · exact absurd hb (hne a' hal' hb')
    · rcases List.mem_cons.1 ha' with rfl | hal'
      · exact absurd hb' (hne a hal hb)
      · exact ih hl hal hal'

private theorem mem_keys_of_mem_targetsOf {id target : BlockId} (h : target ∈ targetsOf s id) :
    id ∈ s.blocks.keys := by
  unfold targetsOf at h
  cases hget : s.blocks.get? id with
  | none => simp [hget] at h
  | some b => exact Arena.mem_keys_of_get?_eq_some hget

/-- If every block but the one on top is the end of exactly one edge, and every block can be reached, the walk
leaves nothing over. -/
private theorem walk_eq_ok_nil (hn : s.blocks.keys.Nodup)
    (hperm : s.blocks.keys.Perm (s.top :: s.blocks.keys.flatMap (targetsOf s)))
    (hreach : ∀ id ∈ s.blocks.keys, Reaches s id) : walk s s.blocks.keys [s.top] = .ok [] := by
  obtain ⟨left, hw, hsub, hown⟩ := walk_of_perm s s.blocks.keys [s.top] hperm
  have hnd := hperm.nodup_iff.1 hn
  rw [List.nodup_cons] at hnd
  -- What is left over owns itself, so a way from the top to it would have entered it along a second edge.
  have hleft : ∀ id, Reaches s id → id ∉ left := by
    intro id hid
    induction hid with
    | top =>
      intro hmem
      obtain ⟨a, ha, htarget⟩ := List.mem_flatMap.1 (hown.subset hmem)
      exact hnd.1 (List.mem_flatMap.2 ⟨a, hsub.subset ha, htarget⟩)
    | @edge a target _ htarget ih =>
      intro hmem
      obtain ⟨a', ha', htarget'⟩ := List.mem_flatMap.1 (hown.subset hmem)
      have heq : a = a' :=
        eq_of_mem_of_nodup_flatMap hnd.2 (mem_keys_of_mem_targetsOf htarget) (hsub.subset ha') htarget htarget'
      exact ih (heq ▸ ha')
  obtain rfl : left = [] := by
    rw [List.eq_nil_iff_forall_not_mem]
    exact fun id hid => hleft id (hreach id (hsub.subset hid)) hid
  exact hw

/-- The walk reaches every block exactly if each block but the one on top is the end of exactly one edge, no edge
leads to that one, and a way leads to each. -/
theorem checkReach_eq_ok_iff (hn : s.blocks.keys.Nodup) : checkReach s = .ok () ↔
    s.blocks.keys.Perm (s.top :: s.blocks.keys.flatMap (targetsOf s)) ∧ ∀ id ∈ s.blocks.keys, Reaches s id := by
  have hwalk : checkReach s = .ok () ↔ walk s s.blocks.keys [s.top] = .ok [] := by
    unfold checkReach
    rcases walk s s.blocks.keys [s.top] with defect | left
    · simp [bind, Except.bind]
    · cases left <;> simp [bind, Except.bind, pure, Except.pure, throw, throwThe, MonadExceptOf.throw]
  rw [hwalk]
  constructor
  · intro h
    obtain ⟨visited, hkeys, hvisited, hreaches⟩ := exists_visited_of_walk h
    rw [List.append_nil] at hkeys
    refine ⟨hkeys.trans (hvisited.trans ((hkeys.symm.flatMap_right _).cons s.top)), fun id hid => ?_⟩
    refine hreaches (fun top htop => ?_) id (hkeys.subset hid)
    rw [List.mem_singleton.1 htop]
    exact .top
  · rintro ⟨hperm, hreach⟩
    exact walk_eq_ok_nil hn hperm hreach

/-- A list without repetitions is a rearrangement of another one that has each of its members once. -/
private theorem perm_cons_iff {keys ends : List BlockId} {top : BlockId} (hn : keys.Nodup) (htop : top ∈ keys)
    (hsub : ∀ id ∈ ends, id ∈ keys) : keys.Perm (top :: ends) ↔
      ends.count top = 0 ∧ ∀ id ∈ keys, id ≠ top → ends.count id = 1 := by
  rw [List.perm_iff_count]
  constructor
  · intro h
    constructor
    · have hcount := h top
      rw [List.count_eq_one_of_mem hn htop, List.count_cons_self] at hcount
      omega
    · intro id hid hne
      have hcount := h id
      rw [List.count_eq_one_of_mem hn hid, List.count_cons_of_ne hne.symm] at hcount
      exact hcount.symm
  · rintro ⟨hzero, hone⟩ id
    by_cases hid : id ∈ keys
    · rw [List.count_eq_one_of_mem hn hid]
      by_cases hne : id = top
      · rw [hne, List.count_cons_self, hzero]
      · rw [List.count_cons_of_ne (Ne.symm hne), hone id hid hne]
    · have hne : top ≠ id := fun e => hid (e ▸ htop)
      rw [List.count_eq_zero_of_not_mem hid, List.count_cons_of_ne hne,
        List.count_eq_zero_of_not_mem fun hmem => hid (hsub id hmem)]

/-! ### The other checks -/

theorem mem_keys_of_checkTop (h : checkTop s = .ok ()) : s.top ∈ s.blocks.keys := by
  by_contra hkeys
  simp [checkTop, hkeys] at h

private theorem checkTop_eq_ok_iff (hs : s.IsStored) : checkTop s = .ok () ↔
    s.top ∈ s.blocks.keys ∧ ∀ b ∈ s.blocks.blocks, b.isTop = true ↔ b.id = s.top := by
  have hcheck : checkTop s = .ok () ↔
      s.top ∈ s.blocks.keys ∧ (s.blocks.blocks.filter Block.isTop).map Block.id = [s.top] := by
    unfold checkTop
    by_cases hkeys : s.top ∈ s.blocks.keys
    · by_cases htops : (s.blocks.blocks.filter Block.isTop).map Block.id = [s.top] <;> simp [hkeys, htops]
    · simp [hkeys]
  rw [hcheck]
  refine and_congr_right fun htop => ?_
  constructor
  · intro htops b hb
    constructor
    · intro hbtop
      have hmem : b.id ∈ (s.blocks.blocks.filter Block.isTop).map Block.id :=
        List.mem_map.2 ⟨b, List.mem_filter.2 ⟨hb, hbtop⟩, rfl⟩
      rw [htops] at hmem
      exact List.mem_singleton.1 hmem
    · -- one block has the id of the top, and that is a hat
      intro hbid
      obtain ⟨hat, hhat, hid⟩ := List.mem_map.1 (htops ▸ List.mem_singleton_self s.top)
      obtain ⟨hmem, hattop⟩ := List.mem_filter.1 hhat
      obtain rfl := List.inj_on_of_nodup_map hs.nodup_ids hb hmem (hbid.trans hid.symm)
      exact hattop
  · intro htops
    have hfilter : ∀ b ∈ s.blocks.blocks, b.isTop = (b.id == s.top) := by
      intro b hb
      rw [Bool.eq_iff_iff, htops b hb, beq_iff_eq]
    have hids : (s.blocks.blocks.map Block.id).filter (· == s.top) = [s.top] := by
      rw [hs.map_id, List.filter_beq, List.count_eq_one_of_mem hs.nodup htop]
      rfl
    rw [List.filter_congr hfilter, ← hids, List.filter_map]
    rfl

theorem checkEdge_eq_ok_iff {b : Block} {edge : Edge × BlockId} : checkEdge s b edge = .ok () ↔
    ∃ c, s.blocks.get? edge.2 = some c ∧ c.parent = some b.id ∧
      (edge.1 = .next → b.shadow = false ∧ c.shadow = false ∧ c.isTop = false) := by
  unfold checkEdge
  cases s.blocks.get? edge.2 with
  | none => by_cases hnext : edge.1 = .next <;> cases b.shadow <;> simp [hnext]
  | some c =>
    by_cases hnext : edge.1 = .next <;> by_cases hparent : c.parent = some b.id <;>
      cases b.shadow <;> simp [hnext, hparent]

private theorem checkOwners_eq_ok_iff : checkOwners s = .ok () ↔ s.ends.Nodup := by
  have hfind : checkOwners s = .ok () ↔ s.ends.find? (fun id => 1 < s.ends.count id) = none := by
    unfold checkOwners
    rw [show s.blocks.blocks.flatMap Block.targets = s.ends from rfl]
    dsimp only
    cases s.ends.find? (fun id => 1 < s.ends.count id) <;> simp
  rw [hfind, List.find?_eq_none, List.nodup_iff_count]
  constructor
  · intro h id
    by_cases hid : id ∈ s.ends
    · simpa using h id hid
    · rw [List.count_eq_zero_of_not_mem hid]
      exact Nat.zero_le 1
  · intro h id _
    simpa using h id

private theorem checkParent_eq_ok_iff {b : Block} : checkParent s b = .ok () ↔
    (b.parent = none → b.isTop = true) ∧ ∀ parent, b.parent = some parent → parent ∈ s.blocks.keys := by
  unfold checkParent
  cases b.parent with
  | none => cases b.isTop <;> simp
  | some parent => by_cases hmem : parent ∈ s.blocks.keys <;> simp [hmem]

private theorem check_eq_ok_iff : check s = .ok () ↔ checkTop s = .ok () ∧
    (∀ b ∈ s.blocks.blocks, ∀ edge ∈ b.edges, checkEdge s b edge = .ok ()) ∧ checkOwners s = .ok () ∧
      (∀ b ∈ s.blocks.blocks, checkParent s b = .ok ()) ∧ checkReach s = .ok () := by
  have hbind (x y : Except Defect Unit) : (x >>= fun _ => y) = .ok () ↔ x = .ok () ∧ y = .ok () := by
    rcases x with defect | u <;> simp [bind, Except.bind]
  unfold check
  rw [hbind, hbind, hbind, hbind, forM_eq_ok_iff, forM_eq_ok_iff]
  simp only [forM_eq_ok_iff]

/-! ### Trees -/

/-- The end of an edge has the parent that makes it pass, so only the top can be without an edge to it. -/
private theorem parent_eq_of_count (hs : s.IsStored) (ht : s.IsTree) {b : Block} (hb : b ∈ s.blocks.blocks)
    (hne : b.id ≠ s.top) : ∃ a ∈ s.blocks.blocks, b.parent = some a.id := by
  have hmem : b.id ∈ s.ends := by
    rw [← List.count_pos_iff, ht.count_other b.id (hs.mem_keys_of_mem hb) hne]
    exact Nat.one_pos
  obtain ⟨a, ha, htarget⟩ := List.mem_flatMap.1 hmem
  obtain ⟨c, hget, hparent⟩ := ht.target a ha b.id htarget
  obtain rfl : c = b := Option.some.inj (hget.symm.trans (hs.get?_eq_some_iff.2 ⟨hb, rfl⟩))
  exact ⟨a, ha, hparent⟩

/-- The ends of edges that pass are blocks of the script. -/
private theorem mem_keys_of_mem_ends (hs : s.IsStored)
    (h : ∀ b ∈ s.blocks.blocks, ∀ id ∈ b.targets, ∃ c, s.blocks.get? id = some c ∧ c.parent = some b.id) :
    ∀ id ∈ s.ends, id ∈ s.blocks.keys := by
  intro id hid
  obtain ⟨b, hb, htarget⟩ := List.mem_flatMap.1 hid
  obtain ⟨c, hget, -⟩ := h b hb id htarget
  obtain ⟨hc, rfl⟩ := hs.get?_eq_some_iff.1 hget
  exact hs.mem_keys_of_mem hc

private theorem isTree_of_check (hs : s.IsStored) (h : check s = .ok ()) : s.IsTree := by
  obtain ⟨htop, hedges, -, hparents, hreach⟩ := check_eq_ok_iff.1 h
  obtain ⟨htopmem, hisTop⟩ := (checkTop_eq_ok_iff hs).1 htop
  obtain ⟨hperm, hreaches⟩ := (checkReach_eq_ok_iff hs.nodup).1 hreach
  have htarget : ∀ b ∈ s.blocks.blocks, ∀ id ∈ b.targets,
      ∃ c, s.blocks.get? id = some c ∧ c.parent = some b.id := by
    intro b hb id hid
    obtain ⟨edge, hedge, rfl⟩ := List.mem_map.1 hid
    obtain ⟨c, hget, hparent, -⟩ := checkEdge_eq_ok_iff.1 (hedges b hb edge hedge)
    exact ⟨c, hget, hparent⟩
  rw [hs.flatMap_targetsOf, perm_cons_iff hs.nodup htopmem (mem_keys_of_mem_ends hs htarget)] at hperm
  refine ⟨htopmem, hisTop, htarget, hperm.1, hperm.2, fun b hb id hid => ?_, fun b hget => ?_, hreaches⟩
  · obtain ⟨c, hget, -, hnext⟩ := checkEdge_eq_ok_iff.1 (hedges b hb _ (Block.mem_edges_of_next hid))
    obtain ⟨hshadow, hcshadow, -⟩ := hnext rfl
    refine ⟨hshadow, fun c' hget' => ?_⟩
    rwa [← Option.some.inj (hget.symm.trans hget')]
  · exact (checkParent_eq_ok_iff.1 (hparents b (hs.get?_eq_some_iff.1 hget).1)).2

private theorem check_of_isTree (hs : s.IsStored) (h : s.IsTree) : check s = .ok () := by
  have hperm : s.blocks.keys.Perm (s.top :: s.ends) :=
    (perm_cons_iff hs.nodup h.top_mem (mem_keys_of_mem_ends hs h.target)).2 ⟨h.count_top, h.count_other⟩
  have hnodup := List.nodup_cons.1 (hperm.nodup_iff.1 hs.nodup)
  refine check_eq_ok_iff.2 ⟨(checkTop_eq_ok_iff hs).2 ⟨h.top_mem, h.isTop_iff⟩, fun b hb edge hedge => ?_,
    checkOwners_eq_ok_iff.2 hnodup.2, fun b hb => checkParent_eq_ok_iff.2 ?_, ?_⟩
  · have htarget := Block.mem_targets_of_mem_edges hedge
    obtain ⟨c, hget, hparent⟩ := h.target b hb edge.2 htarget
    obtain ⟨hc, hid⟩ := hs.get?_eq_some_iff.1 hget
    refine checkEdge_eq_ok_iff.2 ⟨c, hget, hparent, fun hnext => ?_⟩
    obtain ⟨hshadow, hcshadow⟩ := h.shadow b hb edge.2 (Block.next_of_mem_edges hedge hnext)
    refine ⟨hshadow, hcshadow c hget, Bool.eq_false_iff.2 fun htop => ?_⟩
    -- no edge leads to the only hat
    rw [h.isTop_iff c hc, hid] at htop
    exact hnodup.1 (htop ▸ List.mem_flatMap.2 ⟨b, hb, htarget⟩)
  · by_cases htop : b.id = s.top
    · exact ⟨fun _ => (h.isTop_iff b hb).2 htop, h.parent_top b (hs.get?_eq_some_iff.2 ⟨hb, htop⟩)⟩
    · obtain ⟨a, ha, hparent⟩ := parent_eq_of_count hs h hb htop
      rw [hparent]
      refine ⟨fun hnone => (nomatch hnone), fun parent he => ?_⟩
      rw [← Option.some.inj he]
      exact hs.mem_keys_of_mem ha
  · rw [checkReach_eq_ok_iff hs.nodup, hs.flatMap_targetsOf]
    exact ⟨hperm, h.reaches⟩

/-- A script has no defect exactly if its blocks form a tree below the one on top. -/
theorem check_eq_ok_iff_isTree (hs : s.IsStored) : check s = .ok () ↔ s.IsTree :=
  ⟨isTree_of_check hs, check_of_isTree hs⟩

end Validity

end BlockScript
