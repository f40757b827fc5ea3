import BlockScript.Graph.Block
import Mathlib.Data.List.Nodup

/-!
# Arenas of blocks under their own ids

The builder stores every block under its own id and never gives an id twice.  So an arena is a list of blocks, and
the operations on it become operations on that list: storing appends (`store_eq_append`), looking up finds the
member with the id (`get?_ofBlocks_eq_some_iff`), and changing a block rewrites it where it stands
(`modify_ofBlocks_mid`).
-/

namespace BlockScript

/-- An entry whose key is new comes behind the others. -/
theorem Keyed.put_eq_append {α : Type} (key : α → String) {a : α} {l : List α} (h : key a ∉ l.map key) :
    Keyed.put key a l = l ++ [a] := by
  induction l with
  | nil => rfl
  | cons b l ih =>
    simp only [List.map_cons, List.mem_cons, not_or] at h
    simp [Keyed.put, Ne.symm h.1, ih h.2]

namespace Arena

/-- The arena of some blocks, each under its own id. -/
def ofBlocks (blocks : List Block) : Arena :=
  blocks.map fun b => (b.id, b)

@[simp] theorem keys_ofBlocks (blocks : List Block) : (ofBlocks blocks).keys = blocks.map Block.id := by
  simp [keys, ofBlocks]

@[simp] theorem blocks_ofBlocks (blocks : List Block) : (ofBlocks blocks).blocks = blocks := by
  unfold Arena.blocks ofBlocks
  rw [List.map_map]
  exact List.map_id blocks

theorem ofBlocks_append (l l' : List Block) : ofBlocks (l ++ l') = ofBlocks l ++ ofBlocks l' :=
  List.map_append

@[simp] theorem length_ofBlocks (blocks : List Block) : (ofBlocks blocks).length = blocks.length :=
  List.length_map ..

theorem exists_get?_of_mem_keys {arena : Arena} {id : BlockId} (h : id ∈ arena.keys) :
    ∃ c, arena.get? id = some c := by
  obtain ⟨entry, hentry, rfl⟩ := List.mem_map.1 h
  have hsome : (Keyed.get? Prod.fst entry.1 arena).isSome = true :=
    List.find?_isSome.2 ⟨entry, hentry, by simp⟩
  obtain ⟨found, hfound⟩ := Option.isSome_iff_exists.1 hsome
  exact ⟨found.2, by rw [get?, hfound]; rfl⟩

/-- What is found under a key is stored under it. -/
theorem mem_of_get?_eq_some {arena : Arena} {id : BlockId} {b : Block} (h : arena.get? id = some b) :
    (id, b) ∈ arena := by
  obtain ⟨entry, hentry, rfl⟩ := Option.map_eq_some_iff.1 h
  have hkey : entry.1 = id := by simpa using List.find?_some hentry
  rw [← hkey]
  exact List.mem_of_find?_eq_some hentry

theorem mem_keys_of_get?_eq_some {arena : Arena} {id : BlockId} {b : Block} (h : arena.get? id = some b) :
    id ∈ arena.keys :=
  List.mem_map.2 ⟨_, mem_of_get?_eq_some h, rfl⟩

/-- An id that is not stored in front is looked up behind. -/
theorem get?_append_of_not_mem_keys {arena : Arena} {id : BlockId} (h : id ∉ arena.keys) (behind : Arena) :
    Arena.get? (arena ++ behind) id = behind.get? id := by
  have hnone : Keyed.get? Prod.fst id arena = none := by
    rw [Keyed.get?, List.find?_eq_none]
    intro entry hentry hkey
    exact h (List.mem_map.2 ⟨entry, hentry, eq_of_beq hkey⟩)
  rw [get?, Keyed.get?, List.find?_append]
  exact congrArg (fun found => (Option.or found _).map Prod.snd) hnone

/-- A block whose id is new comes behind the others. -/
theorem store_eq_append {arena : Arena} {b : Block} (h : b.id ∉ arena.keys) :
    arena.store b = arena ++ ofBlocks [b] :=
  Keyed.put_eq_append Prod.fst h

/-- Looking up an id finds the one block that has it. -/
theorem get?_ofBlocks_eq_some_iff {blocks : List Block} (hn : (blocks.map Block.id).Nodup) {id : BlockId}
    {b : Block} : (ofBlocks blocks).get? id = some b ↔ b ∈ blocks ∧ b.id = id := by
  induction blocks with
  | nil => simp [ofBlocks, get?, Keyed.get?]
  | cons c blocks ih =>
    rw [List.map_cons, List.nodup_cons] at hn
    specialize ih hn.2
    by_cases hc : c.id = id
    · have hget : (ofBlocks (c :: blocks)).get? id = some c := by simp [ofBlocks, get?, Keyed.get?, hc]
      rw [hget, Option.some.injEq]
      constructor
      · rintro rfl
        exact ⟨by simp, hc⟩
      · rintro ⟨hb, hid⟩
        rcases List.mem_cons.1 hb with rfl | hb
        · rfl
        · exact absurd (List.mem_map.2 ⟨b, hb, by rw [hid, hc]⟩) hn.1
    · have hget : (ofBlocks (c :: blocks)).get? id = (ofBlocks blocks).get? id := by
        simp [ofBlocks, get?, Keyed.get?, hc]
      rw [hget, ih]
      constructor
      · rintro ⟨hb, hid⟩
        exact ⟨List.mem_cons_of_mem _ hb, hid⟩
      · rintro ⟨hb, hid⟩
        rcases List.mem_cons.1 hb with rfl | hb
        · exact absurd hid hc
        · exact ⟨hb, hid⟩

private theorem modify_of_not_mem {blocks : List Block} {id : BlockId} {f : Block → Block}
    (h : id ∉ blocks.map Block.id) : (ofBlocks blocks).modify id f = ofBlocks blocks := by
  unfold modify ofBlocks
  rw [List.map_map]
  apply List.map_congr_left
  intro b hb
  exact if_neg fun e => h (List.mem_map.2 ⟨b, hb, e⟩)

/-- Changing a block rewrites it where it stands, if its id stays the same. -/
theorem modify_ofBlocks_mid {l l' : List Block} {b : Block} {f : Block → Block}
    (hn : ((l ++ b :: l').map Block.id).Nodup) (hf : (f b).id = b.id) :
    (ofBlocks (l ++ b :: l')).modify b.id f = ofBlocks (l ++ f b :: l') := by
  rw [List.map_append, List.map_cons, List.nodup_append, List.nodup_cons] at hn
  obtain ⟨-, ⟨hl', -⟩, hdisj⟩ := hn
  have hl : b.id ∉ l.map Block.id := fun h => hdisj _ h _ (by simp) rfl
  have hsplit : ∀ c : Block, ofBlocks (l ++ c :: l') = ofBlocks l ++ (c.id, c) :: ofBlocks l' := by
    intro c
    rw [ofBlocks_append]
    rfl
  have e : (ofBlocks (l ++ b :: l')).modify b.id f =
      (ofBlocks l).modify b.id f ++ (b.id, f b) :: (ofBlocks l').modify b.id f := by
    rw [hsplit]
    simp [modify]
  rw [e, modify_of_not_mem hl, modify_of_not_mem hl', hsplit, hf]

end Arena

end BlockScript
