import BlockScript.Proofs.Graph.Tree
import Mathlib.Logic.Relation

/-!
# The way up

From each block of a valid script the parents lead up to the block on top (`Script.IsTree.climbs`).  A parent is
compared with an edge only at the end of the edge, and no edge leads to the top: the parent of the top may be any
block of the script.  So the way up ends at the top if that has no parent, and else it runs in a circle
(`Validity.climbs_of_check`).
-/

namespace BlockScript

namespace Script

/-- The parent of the block under a key. -/
def parent? (s : Script) (id : BlockId) : Option BlockId :=
  (s.blocks.get? id).bind Block.parent

/-- The way up leads from the block `id` to its parent. -/
def HasParent (s : Script) (id parent : BlockId) : Prop :=
  s.parent? id = some parent

instance (s : Script) (id parent : BlockId) : Decidable (s.HasParent id parent) :=
  inferInstanceAs (Decidable (s.parent? id = some parent))

/-- No block stands above itself. -/
def IsAcyclic (s : Script) : Prop :=
  ∀ id, ¬ Relation.TransGen s.HasParent id id

variable {s : Script} {id : BlockId}

/-- Blocks above a block that stands above itself lead back to it. -/
private theorem climbs_back {above : BlockId} (hcircle : Relation.TransGen s.HasParent id id)
    (hclimb : Relation.ReflTransGen s.HasParent id above) : Relation.ReflTransGen s.HasParent above id := by
  induction hclimb with
  | refl => exact .refl
  | @tail above parent _ hparent ih =>
    -- there is one way up only, and it goes on to `id` even if it has just come from there
    have hway : Relation.TransGen s.HasParent above id := by
      rcases Relation.reflTransGen_iff_eq_or_transGen.1 ih with rfl | hway
      · exact hcircle
      · exact hway
    obtain ⟨parent', hparent', hback⟩ := Relation.TransGen.head'_iff.1 hway
    obtain rfl : parent = parent' := Option.some.inj (hparent.symm.trans hparent')
    exact hback

/-- A block does not stand above itself if the way up from it ends. -/
theorem not_transGen_of_climbs {last : BlockId} (hclimb : Relation.ReflTransGen s.HasParent id last)
    (hlast : s.parent? last = none) : ¬ Relation.TransGen s.HasParent id id := by
  intro hcircle
  have hround : Relation.TransGen s.HasParent last last :=
    (Relation.TransGen.trans_right (climbs_back hcircle hclimb) hcircle).trans_left hclimb
  obtain ⟨parent, hparent, -⟩ := Relation.TransGen.head'_iff.1 hround
  rw [HasParent, hlast] at hparent
  cases hparent

namespace IsTree

variable (hs : s.IsStored) (h : s.IsTree)

include hs h

/-- The end of an edge has the block that the edge comes from as its parent. -/
theorem hasParent_of_mem_targetsOf {target : BlockId} (htarget : target ∈ Validity.targetsOf s id) :
    s.HasParent target id := by
  unfold Validity.targetsOf at htarget
  cases hget : s.blocks.get? id with
  | none => simp [hget] at htarget
  | some b =>
    rw [hget] at htarget
    obtain ⟨hb, rfl⟩ := hs.get?_eq_some_iff.1 hget
    obtain ⟨c, hc, hparent⟩ := h.target b hb target htarget
    rw [HasParent, parent?, hc]
    exact hparent

/-- The way up from a block leads to the top. -/
theorem climbs (hid : id ∈ s.blocks.keys) : Relation.ReflTransGen s.HasParent id s.top := by
  have hreaches := h.reaches id hid
  clear hid
  induction hreaches with
  | top => exact .refl
  | edge _ htarget ih => exact .head (h.hasParent_of_mem_targetsOf hs htarget) ih

/-- The way up runs in a circle exactly if the block on top has a parent. -/
theorem isAcyclic_iff : s.IsAcyclic ↔ s.parent? s.top = none := by
  constructor
  · intro hacyclic
    rw [Option.eq_none_iff_forall_ne_some]
    intro parent hparent
    obtain ⟨b, hget, hb⟩ := Option.bind_eq_some_iff.1 hparent
    exact hacyclic s.top (.head' hparent (h.climbs hs (h.parent_top b hget parent hb)))
  · intro htop id hcircle
    obtain ⟨parent, hparent, -⟩ := Relation.TransGen.head'_iff.1 hcircle
    obtain ⟨b, hget, -⟩ := Option.bind_eq_some_iff.1 hparent
    have hid : id ∈ s.blocks.keys := Arena.mem_keys_of_get?_eq_some hget
    exact not_transGen_of_climbs (h.climbs hs hid) htop hcircle

end IsTree

end Script

namespace Validity

/-- From each block of a valid script the parents lead up to the block on top.  They end there, and no block stands
above itself, exactly if the block on top has no parent. -/
theorem climbs_of_check {s : Script} (hs : s.IsStored) (h : check s = .ok ()) :
    (∀ id ∈ s.blocks.keys, Relation.ReflTransGen s.HasParent id s.top) ∧
      (s.IsAcyclic ↔ s.parent? s.top = none) := by
  have htree := (check_eq_ok_iff_isTree hs).1 h
  exact ⟨fun id hid => htree.climbs hs hid, htree.isAcyclic_iff hs⟩

/-- A block that is no shadow may have any shape. -/
theorem any_shape {shape : Shape} : false = true → shape = .reporter :=
  nofun

/-- A reporter may be a shadow. -/
private theorem any_reporter : true = true → Shape.reporter = .reporter :=
  fun _ => rfl

/-- A hat, and a command with a number below it.  The hat has the given parent. -/
def moving (parent : Option BlockId) : Script :=
  ⟨"hat", Arena.ofBlocks
    [⟨"hat", "event_whenflagclicked", .hat, [], [], parent, some "move", false, any_shape⟩,
      ⟨"ten", "math_number", .reporter, [], [⟨"NUM", "10", none⟩], some "move", none, true, any_reporter⟩,
      ⟨"move", "motion_movesteps", .command, [.block "STEPS" .number "ten"], [], some "hat", none, false, any_shape⟩]⟩

/-- A hat whose parent is the number of the command below it is valid, and it stands above itself. -/
theorem circle_of_check : (moving (some "ten")).IsStored ∧ check (moving (some "ten")) = .ok () ∧
    (moving (some "ten")).parent? (moving (some "ten")).top = some "ten" ∧ ¬(moving (some "ten")).IsAcyclic := by
  have hten : (moving (some "ten")).HasParent "hat" "ten" := by decide
  have hmove : (moving (some "ten")).HasParent "ten" "move" := by decide
  have hhat : (moving (some "ten")).HasParent "move" "hat" := by decide
  refine ⟨⟨by decide, by decide⟩, by decide +kernel, hten, fun hacyclic => ?_⟩
  exact hacyclic "hat" (((Relation.TransGen.single hten).tail hmove).tail hhat)

/-- The way up from a number leads over its command to the hat, and ends there. -/
theorem climbs_of_check_number : (moving none).IsStored ∧ check (moving none) = .ok () ∧
    "ten" ∈ (moving none).blocks.keys ∧ Relation.ReflTransGen (moving none).HasParent "ten" "hat" ∧
      (moving none).IsAcyclic := by
  have hs : (moving none).IsStored := ⟨by decide, by decide⟩
  have hcheck : check (moving none) = .ok () := by decide +kernel
  have hten : "ten" ∈ (moving none).blocks.keys := by decide
  obtain ⟨hclimbs, hacyclic⟩ := climbs_of_check hs hcheck
  exact ⟨hs, hcheck, hten, hclimbs "ten" hten, hacyclic.2 (by decide)⟩

end Validity

end BlockScript
