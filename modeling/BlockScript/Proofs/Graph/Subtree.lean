import BlockScript.Proofs.Graph.Forest
import BlockScript.Proofs.Graph.Tree

/-!
# Blocks below a block

The blocks below an id of a script are those that can be reached from it.  Two scripts agree below an id if the same
ids can be reached from it in both, and lead to the same blocks.  They do if both hold all blocks of one tree
(`Script.agreesBelow_of_forest`), whatever else they hold.
-/

namespace BlockScript

namespace Script

/-- The blocks of a script as seen from one of them. -/
def seenFrom (s : Script) (root : BlockId) : Script :=
  ⟨root, s.blocks⟩

/-- An id leads from the root to a block in a script. -/
def Below (s : Script) (root id : BlockId) : Prop :=
  Validity.Reaches (s.seenFrom root) id

/-- The same ids lead from the root to the same blocks in both scripts. -/
def AgreesBelow (s s' : Script) (root : BlockId) : Prop :=
  ∀ id, (s.Below root id ↔ s'.Below root id) ∧
    (s.Below root id → ∃ b, s.blocks.get? id = some b ∧ s'.blocks.get? id = some b)

variable {s s' : Script} {parent : Option BlockId} {root : BlockId} {blocks : List Block}

/-- From the root of a tree no other blocks than those of the tree are reached. -/
private theorem exists_of_below (h : Forest parent [root] blocks)
    (hs : ∀ b ∈ blocks, s.blocks.get? b.id = some b) {id : BlockId} (hid : s.Below root id) :
    ∃ b ∈ blocks, b.id = id := by
  induction hid with
  | top =>
    obtain ⟨b, hb, hroot, -⟩ := h.parent_of_root root List.mem_cons_self
    exact ⟨b, hb, hroot⟩
  | edge _ hmem ih =>
    obtain ⟨b, hb, rfl⟩ := ih
    have htargets : Validity.targetsOf (s.seenFrom root) b.id = b.targets := by
      rw [Validity.targetsOf, show (s.seenFrom root).blocks = s.blocks from rfl, hs b hb]
      rfl
    rw [htargets] at hmem
    obtain ⟨c, hc, hcid, -⟩ := h.parent_of_target b hb _ hmem
    exact ⟨c, hc, hcid⟩

private theorem below_of_below (h : Forest parent [root] blocks) (hs : ∀ b ∈ blocks, s.blocks.get? b.id = some b)
    (hs' : ∀ b ∈ blocks, s'.blocks.get? b.id = some b) {id : BlockId} (hid : s.Below root id) :
    s'.Below root id := by
  induction hid with
  | top => exact .top
  | @edge id target source hmem ih =>
    obtain ⟨b, hb, rfl⟩ := exists_of_below h hs source
    refine .edge ih ?_
    rw [Validity.targetsOf, show (s.seenFrom root).blocks = s.blocks from rfl, hs b hb] at hmem
    rw [Validity.targetsOf, show (s'.seenFrom root).blocks = s'.blocks from rfl, hs' b hb]
    exact hmem

/-- Two scripts that hold the blocks of a tree agree below its root. -/
theorem agreesBelow_of_forest (h : Forest parent [root] blocks) (hs : ∀ b ∈ blocks, s.blocks.get? b.id = some b)
    (hs' : ∀ b ∈ blocks, s'.blocks.get? b.id = some b) : s.AgreesBelow s' root := by
  intro id
  refine ⟨⟨below_of_below h hs hs', below_of_below h hs' hs⟩, fun hid => ?_⟩
  obtain ⟨b, hb, rfl⟩ := exists_of_below h hs hid
  exact ⟨b, hs b hb, hs' b hb⟩

end Script

end BlockScript
