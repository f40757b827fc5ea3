import BlockScript.Proofs.Builder.Built

/-!
# The end of a script

When a script ends, the blocks that stand alone are exactly those of the items below its hat
(`Draft.Built.mem_loose_iff`), and the order of their ids is the order of the items.  They are chained below the hat
(`Draft.Built.finish_eq_ok`).
-/

namespace BlockScript

variable {r : Reader} {ids : IdSource}

/-! ### The hat -/

/-- Hanging loose items below a hat chains them. -/
theorem Build.hang_loose {front : List Block} {hat : Block} {k : Nat} {items : List Item}
    (hparent : hat.parent = none) (hnext : hat.next = none)
    (hn : ((front ++ [hat]).map Block.id ++ ids.span k (Item.sizes r items)).Nodup) :
    Build.hang hat.id (Item.heads r ids k items)
        (Arena.ofBlocks (front ++ hat :: Item.loose r ids k none items)) =
      Arena.ofBlocks (front ++ hat.placed none (Item.first? ids k items) ::
        Item.chained r ids k (some hat.id) items) := by
  have hlone : hat.placed none none = hat := Block.placed_self hparent hnext
  cases items with
  | nil =>
    rw [Item.first?, List.head?_nil, Option.map_none, hlone]
    rfl
  | cons item rest =>
    have hassoc : ∀ (c : Block) (l : List Block), front ++ c :: l = (front ++ [c]) ++ l := by simp
    have hnodup : ∀ c : Block, c.id = hat.id → ∀ parent next,
        ((front ++ c :: Item.chained r ids k parent (item :: rest)).map Block.id).Nodup ∧
          ((front ++ c :: (item.blocks r ids k parent next ++
            Item.chained r ids (k + item.size r) (some (ids k)) rest)).map Block.id).Nodup := by
      intro c hc parent next
      rw [List.map_append, List.map_singleton, List.append_assoc, List.singleton_append, ← hc] at hn
      rw [List.map_append, List.map_cons, List.map_append, List.map_cons]
      refine ⟨(((Item.chained_ids_perm k _ _).cons _).append_left _).nodup_iff.2 hn,
        ((List.Perm.cons _ ?_).append_left _).nodup_iff.2 hn⟩
      rw [List.map_append, Item.sizes_cons, IdSource.span_add]
      exact (item.ids_perm k _ _).append (Item.chained_ids_perm _ _ rest)
    have hlink := @Arena.link_loose r ids none rest (front ++ [hat]) item k
      (item.parentIn none) hn
    have hhat := @Arena.setNext_placed _ _ hat none none (ids k)
      (hnodup (hat.placed none none) rfl (item.parentIn none) none).1
    have hfirst := @Arena.setParent_item r ids _ item _ _ _ _ hat.id
      (by rw [← hassoc]; exact (hnodup (hat.placed none (some (ids k))) rfl (item.parentIn none)
        (Item.first? ids (k + item.size r) rest)).2)
    rw [hlone] at hhat
    show ((Arena.link _ _).setNext hat.id (ids k)).setParent (ids k) hat.id = _
    rw [hassoc, Item.loose, hlink, ← hassoc, hhat, Item.chained_cons, hassoc, hfirst, ← hassoc,
      Item.chained_cons]
    rfl

/-! ### The order of the items -/

private theorem filter_mem_of_sublist {l l' : List BlockId} (h : l'.Sublist l) (hn : l.Nodup) :
    l.filter (fun id => l'.contains id) = l' := by
  induction h with
  | slnil => rfl
  | @cons l' l a hsub ih =>
    rw [List.nodup_cons] at hn
    have ha : a ∉ l' := fun hmem => hn.1 (hsub.subset hmem)
    rw [List.filter_cons_of_neg (by simpa using ha), ih hn.2]
  | @cons_cons l' l a hsub ih =>
    rw [List.nodup_cons] at hn
    have hrest : l.filter (fun id => (a :: l').contains id) = l.filter (fun id => l'.contains id) := by
      apply List.filter_congr
      intro id hid
      have hne : id ≠ a := fun he => hn.1 (he ▸ hid)
      simp [hne]
    rw [List.filter_cons_of_pos (by simp), hrest, ih hn.2]

theorem Item.mem_loose_of_mem_heads {k : Nat} {items : List Item} {id : BlockId}
    (h : id ∈ Item.heads r ids k items) (hr : ∀ line ∈ Item.allLines items, r.isReadable line = true) :
    ∃ c ∈ Item.loose r ids k none items,
      c.id = id ∧ c.parent = none ∧ c.shadow = false ∧ c.isTop = false := by
  induction items generalizing k with
  | nil => cases h
  | cons item rest ih =>
    obtain ⟨hitem, hrest⟩ := Item.forall_allLines_cons.1 hr
    rw [Item.loose]
    rcases List.mem_cons.1 h with rfl | h
    · refine ⟨(item.block r ids k).placed (item.parentIn none) none, ?_, Item.id_block k item, ?_,
        Item.shadow_block k item, Item.isTop_block hitem k⟩
      · rw [Item.blocks]
        simp
      · cases item <;> rfl
    · obtain ⟨c, hc, hcid⟩ := ih h hrest
      exact ⟨c, List.mem_append_right _ hc, hcid⟩

namespace Draft.Built

variable {n : Nat} {hat : Line} {isTrigger : hat.kind = .trigger} {items : List Item} {b b' : Builder}

private theorem forest (h : Built r ids n ⟨hat, isTrigger, items, []⟩ b)
    (hr : ∀ line ∈ Outline.lines ⟨hat, isTrigger, items⟩, r.isReadable line = true) :
    Forest none (ids n :: Item.heads r ids (n + (r.phrase hat).size) items) b.arena.blocks := by
  obtain ⟨hreadable, hitems⟩ := Outline.forall_lines.1 hr
  obtain ⟨-, hfits⟩ := Reader.fits_trigger isTrigger hreadable
  have hhat := (r.phrase hat).term.forest ids n none hfits.complete
  have hloose := @Item.forest_loose r ids (n + (r.phrase hat).size) items hitems
  rw [h.arena, Arena.blocks_ofBlocks]
  have hforest := hhat.append hloose
  rw [Phrase.blocks_term, List.append_assoc] at hforest
  exact hforest

private theorem blocks_eq (h : Built r ids n ⟨hat, isTrigger, items, []⟩ b) :
    b.arena.blocks = (r.phrase hat).before ids n ++ (r.phrase hat).block ids n ::
      Item.loose r ids (n + (r.phrase hat).size) none items := by
  rw [h.arena, Arena.blocks_ofBlocks]
  rfl

private theorem nodup_blocks (h : Built r ids n ⟨hat, isTrigger, items, []⟩ b) :
    (b.arena.blocks.map Block.id).Nodup := by
  rw [h.arena, Arena.blocks_ofBlocks]
  exact h.nodup_ids

/-- A block without a parent is a root, and the hat does not stand alone. -/
private theorem mem_heads_of_mem_loose (h : Built r ids n ⟨hat, isTrigger, items, []⟩ b)
    (hr : ∀ line ∈ Outline.lines ⟨hat, isTrigger, items⟩, r.isReadable line = true) {id : BlockId}
    (hid : id ∈ b.loose) : id ∈ Item.heads r ids (n + (r.phrase hat).size) items := by
  obtain ⟨c, hc, rfl⟩ := List.mem_map.1 hid
  obtain ⟨hc, hloose⟩ := List.mem_filter.1 hc
  simp only [Builder.isLoose, Bool.and_eq_true, Bool.not_eq_true', Option.isNone_iff_eq_none] at hloose
  obtain ⟨⟨-, htop⟩, hparent⟩ := hloose
  rcases (h.forest hr).owner_of_mem c hc with ⟨hroot, -⟩ | ⟨a, -, hsome, -⟩
  · refine (List.mem_cons.1 hroot).resolve_left fun hid => ?_
    have hhat : (r.phrase hat).block ids n ∈ b.arena.blocks := by
      rw [h.blocks_eq]
      simp
    obtain rfl := List.inj_on_of_nodup_map h.nodup_blocks hc hhat hid
    obtain ⟨-, hfits⟩ := Reader.fits_trigger isTrigger (Outline.forall_lines.1 hr).1
    rw [Block.isTop, decide_eq_false_iff_not] at htop
    exact htop hfits.shape
  · rw [hparent] at hsome
    cases hsome

/-- A root of the forest is not the end of an edge. -/
private theorem notMem_held (h : Built r ids n ⟨hat, isTrigger, items, []⟩ b)
    (hr : ∀ line ∈ Outline.lines ⟨hat, isTrigger, items⟩, r.isReadable line = true) {id : BlockId}
    (hid : id ∈ Item.heads r ids (n + (r.phrase hat).size) items) : id ∉ b.held := by
  intro hheld
  obtain ⟨a, ha, hnested⟩ := List.mem_flatMap.1 hheld
  have hdisj := (List.nodup_append.1 ((h.forest hr).ids_perm.nodup_iff.1 h.nodup_blocks)).2.2
  refine hdisj id (List.mem_cons_of_mem _ hid) id (List.mem_flatMap.2 ⟨a, ha, ?_⟩) rfl
  rw [Block.targets_eq]
  exact List.mem_append_left _ hnested

/-- The blocks that stand alone are those of the items below the hat. -/
theorem mem_loose_iff (h : Built r ids n ⟨hat, isTrigger, items, []⟩ b)
    (hr : ∀ line ∈ Outline.lines ⟨hat, isTrigger, items⟩, r.isReadable line = true) (id : BlockId) :
    id ∈ b.loose ↔ id ∈ Item.heads r ids (n + (r.phrase hat).size) items := by
  refine ⟨h.mem_heads_of_mem_loose hr, fun hid => ?_⟩
  obtain ⟨c, hc, hcid, hparent, hshadow, htop⟩ := Item.mem_loose_of_mem_heads hid (Outline.forall_lines.1 hr).2
  have hheld : c.id ∉ b.held := hcid ▸ h.notMem_held hr hid
  refine List.mem_map.2 ⟨c, List.mem_filter.2 ⟨?_, ?_⟩, hcid⟩
  · rw [h.blocks_eq]
    simp [hc]
  · simp [Builder.isLoose, hheld, hparent, hshadow, htop]

/-- The blocks that stand alone come in the order of the items. -/
private theorem sequence_eq_ok (h : Built r ids n ⟨hat, isTrigger, items, []⟩ b)
    (hr : ∀ line ∈ Outline.lines ⟨hat, isTrigger, items⟩, r.isReadable line = true) :
    Build.sequence b = .ok (Item.heads r ids (n + (r.phrase hat).size) items) b := by
  have hsub : (Item.heads r ids (n + (r.phrase hat).size) items).Sublist b.issued := by
    rw [h.issued]
    show List.Sublist _ (ids.span n ((r.phrase hat).size + Item.sizes r items))
    rw [IdSource.span_add]
    exact (Item.heads_sublist_span _ items).trans (List.sublist_append_right _ _)
  have hfind : b.loose.find? (!b.issued.contains ·) = none := by
    rw [List.find?_eq_none]
    intro id hid
    have hmem := hsub.subset ((h.mem_loose_iff hr id).1 hid)
    simp [hmem]
  have hfilter : b.issued.filter b.loose.contains = Item.heads r ids (n + (r.phrase hat).size) items := by
    rw [← filter_mem_of_sublist hsub h.nodup]
    apply List.filter_congr
    intro id _
    rw [Bool.eq_iff_iff, List.contains_iff_mem, List.contains_iff_mem]
    exact h.mem_loose_iff hr id
  have hsequence : b.sequence = .ok (Item.heads r ids (n + (r.phrase hat).size) items) := by
    unfold Builder.sequence
    simp only [hfind, hfilter]
  refine bind_eq_ok_iff.2 ⟨b, b, rfl, ?_⟩
  rw [hsequence]
  rfl

/-- Without an open body the script ends, and its items are chained below the hat. -/
theorem finish_eq_ok (h : Built r ids n ⟨hat, isTrigger, items, []⟩ b)
    (hr : ∀ line ∈ Outline.lines ⟨hat, isTrigger, items⟩, r.isReadable line = true) :
    ∃ b', Build.finish b = .ok (Outline.script r ids n ⟨hat, isTrigger, items⟩) b' ∧ b'.drawn = b.drawn := by
  have hn : (((r.phrase hat).before ids n ++ [(r.phrase hat).block ids n]).map Block.id ++
      ids.span (n + (r.phrase hat).size) (Item.sizes r items)).Nodup := by
    have hperm := (r.phrase hat).term.ids_perm ids n none
    rw [Phrase.blocks_term, Phrase.size_term] at hperm
    refine (hperm.append_right _).nodup_iff.2 ?_
    rw [← IdSource.span_add]
    exact h.issued ▸ h.nodup
  have hhang := @Build.hang_loose _ _ _ ((r.phrase hat).block ids n) _ _ rfl rfl hn
  have harena : Build.modifyArena (Build.hang (ids n) (Item.heads r ids (n + (r.phrase hat).size) items)) b =
      .ok () { b with arena := Arena.ofBlocks (Outline.blocks r ids n ⟨hat, isTrigger, items⟩) } := by
    show EStateM.Result.ok () { b with arena := Build.hang _ _ b.arena } = _
    rw [h.arena]
    exact congrArg (fun arena => EStateM.Result.ok () { b with arena := arena }) hhang
  let o : Outline := ⟨hat, isTrigger, items⟩
  let final : Builder := { b with
    arena := Arena.ofBlocks (o.blocks r ids n)
    events := b.events.push (.assembled (ids n) (Arena.ofBlocks (o.blocks r ids n)).length
      (Item.heads r ids (n + (r.phrase hat).size) items).length) }
  have hfinish : Build.finish b = .ok (o.script r ids n) final := by
    refine bind_eq_ok_iff.2 ⟨b, b, rfl, ?_⟩
    rw [h.openBodies, h.top]
    exact bind_eq_ok_iff.2 ⟨_, _, h.sequence_eq_ok hr, bind_eq_ok_iff.2 ⟨(), _, harena,
      bind_eq_ok_iff.2 ⟨_, _, rfl, bind_eq_ok_iff.2 ⟨(), final, rfl, rfl⟩⟩⟩⟩
  exact ⟨final, hfinish, rfl⟩

/-- With an open body the script does not end. -/
theorem finish_ne_ok {frame : Frame} {outer : List Frame}
    (h : Built r ids n ⟨hat, isTrigger, items, frame :: outer⟩ b) (s : Script) :
    Build.finish b ≠ .ok s b' := by
  intro hfinish
  obtain ⟨_, _, hget, hfinish⟩ := bind_eq_ok_iff.1 hfinish
  cases hget
  rw [h.openBodies] at hfinish
  obtain ⟨_, _, -, hthrow⟩ := bind_eq_ok_iff.1 hfinish
  exact throw_ne_ok hthrow

end Draft.Built

end BlockScript
