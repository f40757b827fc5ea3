import BlockScript.Proofs.Builder.Grows
import BlockScript.Proofs.Layout.Draft

/-!
# Linking the items of a body

When a body is closed, its loose items are linked.  Linking goes from the first item to the last one, and each step
changes the blocks of two items only, so that the items in front stay chained and those behind stay loose
(`Arena.link_loose`).  `Build.settle_eq_ok` says what the closing of a body does to the blocks of its container.
-/

namespace BlockScript

variable {r : Reader} {ids : IdSource}

namespace Arena

theorem setNext_placed {l l' : List Block} {b : Block} {parent next : Option BlockId} (id : BlockId)
    (hn : ((l ++ b.placed parent next :: l').map Block.id).Nodup) :
    (ofBlocks (l ++ b.placed parent next :: l')).setNext b.id id =
      ofBlocks (l ++ b.placed parent (some id) :: l') :=
  modify_ofBlocks_mid (b := b.placed parent next) hn rfl

theorem setParent_placed {l l' : List Block} {b : Block} {parent next : Option BlockId} (id : BlockId)
    (hn : ((l ++ b.placed parent next :: l').map Block.id).Nodup) :
    (ofBlocks (l ++ b.placed parent next :: l')).setParent b.id id =
      ofBlocks (l ++ b.placed (some id) next :: l') :=
  modify_ofBlocks_mid (b := b.placed parent next) hn rfl

section Items

variable {n : Nat} {item : Item} {front behind : List Block} {parent next : Option BlockId}

private theorem blocks_around (parent next : Option BlockId) :
    front ++ (item.blocks r ids n parent next ++ behind) =
      (front ++ (r.phrase item.opener).before ids n) ++
        (item.block r ids n).placed parent next :: (item.inside r ids n ++ behind) := by
  simp [Item.blocks]

/-- Giving an item a next block changes only that. -/
theorem setNext_item (id : BlockId)
    (hn : ((front ++ (item.blocks r ids n parent next ++ behind)).map Block.id).Nodup) :
    (ofBlocks (front ++ (item.blocks r ids n parent next ++ behind))).setNext (ids n) id =
      ofBlocks (front ++ (item.blocks r ids n parent (some id) ++ behind)) := by
  rw [blocks_around] at hn
  have h := setNext_placed id hn
  rw [Item.id_block] at h
  rw [blocks_around, h, ← blocks_around]

/-- Giving an item a parent changes only that. -/
theorem setParent_item (id : BlockId)
    (hn : ((front ++ (item.blocks r ids n parent next ++ behind)).map Block.id).Nodup) :
    (ofBlocks (front ++ (item.blocks r ids n parent next ++ behind))).setParent (ids n) id =
      ofBlocks (front ++ (item.blocks r ids n (some id) next ++ behind)) := by
  rw [blocks_around] at hn
  have h := setParent_placed id hn
  rw [Item.id_block] at h
  rw [blocks_around, h, ← blocks_around]

end Items

/-- Ids of blocks do not repeat if the blocks have the ids of a span that is new. -/
private theorem nodup_of_span {front behind : List Block} {n count : Nat}
    (hn : (front.map Block.id ++ ids.span n count).Nodup)
    (hperm : (behind.map Block.id).Perm (ids.span n count)) : ((front ++ behind).map Block.id).Nodup := by
  rw [List.map_append]
  exact (hperm.append_left _).nodup_iff.2 hn

/-- Linking loose items chains them behind the first one. -/
theorem link_loose (owner : Option BlockId) (rest : List Item) (front : List Block) (item : Item) (n : Nat)
    (parent : Option BlockId) (hn : (front.map Block.id ++ ids.span n (Item.sizes r (item :: rest))).Nodup) :
    link (Item.heads r ids n (item :: rest))
        (ofBlocks (front ++ (item.blocks r ids n parent none ++ Item.loose r ids (n + item.size r) owner rest))) =
      ofBlocks (front ++ Item.chained r ids n parent (item :: rest)) := by
  -- a linked item moves to the front, and its id stays among the ids that do not repeat
  induction rest generalizing front item n parent with
  | nil =>
    rw [Item.chained_cons]
    rfl
  | cons second rest ih =>
    have hperm : ∀ parent next parent' next', ((item.blocks r ids n parent next ++
        (second.blocks r ids (n + item.size r) parent' next' ++
          Item.loose r ids (n + item.size r + second.size r) owner rest)).map Block.id).Perm
            (ids.span n (Item.sizes r (item :: second :: rest))) := by
      intro parent next parent' next'
      rw [Item.sizes, Item.sizes, IdSource.span_add, IdSource.span_add, List.map_append, List.map_append]
      exact (item.ids_perm n _ _).append ((second.ids_perm _ _ _).append (Item.loose_ids_perm _ _ _))
    have hnext := @setNext_item r ids n item _ _ parent none (ids (n + item.size r))
      (nodup_of_span hn (hperm parent none (second.parentIn owner) none))
    have hsecond : ((front ++ item.blocks r ids n parent (some (ids (n + item.size r)))) ++
        (second.blocks r ids (n + item.size r) (second.parentIn owner) none ++
          Item.loose r ids (n + item.size r + second.size r) owner rest)).map Block.id |>.Nodup := by
      rw [List.append_assoc]
      exact nodup_of_span hn (hperm _ _ _ _)
    have hparent := setParent_item (ids n) hsecond
    have hrest := ih (front ++ item.blocks r ids n parent (some (ids (n + item.size r)))) second
      (n + item.size r) (some (ids n)) (by
        rw [List.map_append, List.append_assoc]
        refine ((List.Perm.append_left _ ?_).nodup_iff).2 hn
        rw [Item.sizes_cons item, IdSource.span_add]
        exact (item.ids_perm n _ _).append_right _)
    show link (ids (n + item.size r) :: _)
      ((setNext (ids n) (ids (n + item.size r)) (ofBlocks _)).setParent (ids (n + item.size r)) (ids n)) = _
    rw [Item.loose, hnext, ← List.append_assoc front, hparent, Item.chained_cons n, ← List.append_assoc front]
    exact hrest

/-- Linking the loose items of a body and giving them a parent chains them below it. -/
theorem setParent_link_loose {owner : Option BlockId} {items : List Item} {front : List Block} {n : Nat}
    {first : BlockId} (hfirst : Item.first? ids n items = some first) (parent : BlockId)
    (hn : (front.map Block.id ++ ids.span n (Item.sizes r items)).Nodup) :
    (link (Item.heads r ids n items) (ofBlocks (front ++ Item.loose r ids n owner items))).setParent first parent =
      ofBlocks (front ++ Item.chained r ids n (some parent) items) := by
  cases items with
  | nil => cases hfirst
  | cons item rest =>
    obtain rfl : ids n = first := Option.some.inj hfirst
    rw [Item.loose, link_loose owner rest front item n _ hn, Item.chained_cons, Item.chained_cons]
    refine setParent_item (r := r) parent (nodup_of_span hn ?_)
    rw [Item.sizes, IdSource.span_add, List.map_append]
    exact (item.ids_perm n _ _).append (Item.chained_ids_perm _ _ rest)

end Arena

theorem discard_eq_ok_iff {ε σ α : Type} {x : EStateM ε σ α} {s s' : σ} {u : Unit} :
    (discard x : EStateM ε σ Unit) s = .ok u s' ↔ ∃ a, x s = .ok a s' := by
  show (EStateM.map (Function.const α ()) x) s = _ ↔ _
  unfold EStateM.map
  cases h : x s with
  | ok a t => exact ⟨fun e => ⟨a, by cases e; rfl⟩, by rintro ⟨_, ⟨⟩⟩; rfl⟩
  | error e t =>
    constructor
    · intro e
      cases e
    · rintro ⟨_, ⟨⟩⟩

namespace Build

variable {b b' : Builder}

theorem block_eq_ok_iff {id : BlockId} {c : Block} :
    block id b = .ok c b' ↔ b.arena.get? id = some c ∧ b = b' := by
  unfold block
  rw [bind_eq_ok_iff]
  cases hget : b.arena.get? id with
  | none =>
    constructor
    · rintro ⟨_, _, ⟨⟩, h⟩
      rw [hget] at h
      exact absurd h throw_ne_ok
    · exact fun h => nomatch h.1
  | some found =>
    constructor
    · rintro ⟨_, _, ⟨⟩, h⟩
      rw [hget, pure_eq_ok_iff] at h
      exact ⟨congrArg some h.1, h.2⟩
    · rintro ⟨⟨⟩, rfl⟩
      refine ⟨b, b, rfl, ?_⟩
      rw [hget, pure_eq_ok_iff]
      exact ⟨rfl, rfl⟩

private theorem forM_block {l : List BlockId} (h : ∀ id ∈ l, id ∈ b.arena.keys) :
    (l.forM fun child => discard (block child)) b = .ok () b := by
  induction l with
  | nil => rfl
  | cons id l ih =>
    obtain ⟨c, hc⟩ := Arena.exists_get?_of_mem_keys (h id (by simp))
    exact bind_eq_ok_iff.2 ⟨(), b, discard_eq_ok_iff.2 ⟨c, block_eq_ok_iff.2 ⟨hc, rfl⟩⟩,
      ih fun id hid => h id (List.mem_cons_of_mem _ hid)⟩

/-- Closing a body chains its items below the container, which holds the first of them. -/
theorem settle_eq_ok {front settled : List Block} {c : Block} {n : Nat} {owner : Option BlockId}
    {items : List Item} {body : OpenBody} (hcontainer : body.container = c.id)
    (hchildren : body.children = Item.heads r ids n items)
    (harena : b.arena = Arena.ofBlocks (front ++ c :: (settled ++ Item.loose r ids n owner items)))
    (hn : ((front ++ c :: settled).map Block.id ++ ids.span n (Item.sizes r items)).Nodup) :
    settle body b = .ok () { b with
      arena := Arena.ofBlocks (front ++ c.withBody body.slot (Item.first? ids n items) ::
        (settled ++ Item.chained r ids n (some c.id) items)) } := by
  cases items with
  | nil =>
    unfold settle
    rw [hchildren]
    cases b
    cases harena
    rfl
  | cons item rest =>
    have hassoc : ∀ (c : Block) (l : List Block), front ++ c :: (settled ++ l) = (front ++ c :: settled) ++ l := by
      intro c l
      rw [List.append_assoc, List.cons_append]
    have hkeys : ∀ id ∈ Item.heads r ids n (item :: rest), id ∈ b.arena.keys := by
      intro id hid
      rw [harena, Arena.keys_ofBlocks, hassoc, List.map_append, List.mem_append]
      exact .inr ((Item.loose_ids_perm n owner _).symm.subset ((Item.heads_sublist_span n _).subset hid))
    have hlink := @Arena.setParent_link_loose _ _ owner (item :: rest) _ _ (ids n) rfl c.id hn
    have hput : (Arena.ofBlocks (front ++ c :: (settled ++ Item.chained r ids n (some c.id) (item :: rest)))).modify
        c.id (·.putInput (.block body.slot .substack (ids n))) =
          Arena.ofBlocks (front ++ c.putInput (.block body.slot .substack (ids n)) ::
            (settled ++ Item.chained r ids n (some c.id) (item :: rest))) := by
      refine Arena.modify_ofBlocks_mid ?_ rfl
      rw [hassoc, List.map_append]
      exact ((Item.chained_ids_perm n _ _).append_left _).nodup_iff.2 hn
    unfold settle
    rw [hchildren]
    refine bind_eq_ok_iff.2 ⟨(), b, forM_block hkeys, ?_⟩
    show EStateM.Result.ok () { b with
      arena := ((Arena.link _ b.arena).setParent (ids n) body.container).modify body.container _ } = _
    rw [harena, hcontainer, hassoc, hlink, ← hassoc, hput]
    rfl

end Build

end BlockScript
