import BlockScript.Proofs.Graph.Forest
import BlockScript.Proofs.Graph.Tree

/-!
# Valid scripts

A script whose blocks form one tree below its only hat passes `Validity.check` (`Validity.check_of_forest`), and
scripts pass together exactly if each of them does and no two of them have a block in common
(`Validity.checkAll_eq_ok_iff_isTree`).

`Validity.Lookup.check` is the same check with a walk that looks up the blocks it visits and breaks off if one is not
there.  The checks in front of the walk see to it that this never comes up (`Validity.Lookup.check_eq_mapError`).
-/

namespace BlockScript

namespace Validity

/-! ### Forests -/

/-- Blocks that form a tree below the only hat are valid. -/
theorem check_of_forest {s : Script} {blocks : List Block} (hs : s.blocks = Arena.ofBlocks blocks)
    (hn : (blocks.map Block.id).Nodup) (hf : Forest none [s.top] blocks)
    (htop : ∀ b ∈ blocks, b.isTop = true ↔ b.id = s.top) : check s = .ok () := by
  have hblocks : s.blocks.blocks = blocks := by rw [hs, Arena.blocks_ofBlocks]
  have hkeys : s.blocks.keys = blocks.map Block.id := by rw [hs, Arena.keys_ofBlocks]
  have hstored : s.IsStored := by
    refine ⟨by rwa [hkeys], fun entry hentry => ?_⟩
    rw [hs] at hentry
    obtain ⟨b, -, rfl⟩ := List.mem_map.1 hentry
    rfl
  have hperm : (blocks.map Block.id).Perm (s.top :: s.ends) := by
    rw [Script.ends, hblocks]
    exact hf.ids_perm
  have hnodup := List.nodup_cons.1 (hperm.nodup_iff.1 hn)
  have hget {id : BlockId} {b : Block} : s.blocks.get? id = some b ↔ b ∈ blocks ∧ b.id = id := by
    rw [hstored.get?_eq_some_iff, hblocks]
  refine (check_eq_ok_iff_isTree hstored).2 ⟨?_, by rwa [hblocks], ?_, ?_, ?_, ?_, ?_, ?_⟩
  · rw [hkeys]
    exact hperm.symm.subset List.mem_cons_self
  · intro b hb id hid
    rw [hblocks] at hb
    obtain ⟨c, hc, hid, hparent⟩ := hf.parent_of_target b hb id hid
    exact ⟨c, hget.2 ⟨hc, hid⟩, hparent⟩
  · exact List.count_eq_zero_of_not_mem hnodup.1
  · intro id hid hne
    rw [hkeys] at hid
    exact List.count_eq_one_of_mem hnodup.2 ((List.mem_cons.1 (hperm.subset hid)).resolve_left hne)
  · intro b hb id hid
    rw [hblocks] at hb
    obtain ⟨hshadow, c, hc, hcid, hcshadow, -⟩ := hf.stacksOn_of_mem b hb id hid
    refine ⟨hshadow, fun c' hc' => ?_⟩
    rwa [← Option.some.inj ((hget.2 ⟨hc, hcid⟩).symm.trans hc')]
  · intro b hb parent hparent
    obtain ⟨hb, hid⟩ := hget.1 hb
    rcases hf.owner_of_mem b hb with ⟨-, hnone⟩ | ⟨a, ha, -, htarget⟩
    · rw [hnone] at hparent
      cases hparent
    · have hmem : b.id ∈ s.ends := by
        rw [Script.ends, hblocks]
        exact List.mem_flatMap.2 ⟨a, ha, htarget⟩
      exact absurd (hid ▸ hmem) hnodup.1
  · intro id hid
    rw [hkeys] at hid
    obtain ⟨b, hb, rfl⟩ := List.mem_map.1 hid
    refine hf.closed (fun id hid => ?_) (fun a ha hreach id hid => ?_) b hb
    · rw [List.mem_singleton.1 hid]
      exact .top
    · exact .edge hreach (by rwa [hstored.targetsOf_eq (hblocks ▸ ha)])

/-! ### Several scripts -/

private theorem lookup_eq_none_iff {seen : List (BlockId × BlockId)} {id : BlockId} :
    seen.lookup id = none ↔ id ∉ seen.map Prod.fst := by
  rw [List.lookup_eq_none_iff, List.mem_map]
  constructor
  · rintro h ⟨entry, hentry, rfl⟩
    simpa using h entry hentry
  · intro h entry hentry
    simpa using fun e : id = entry.1 => h ⟨entry, hentry, e.symm⟩

private theorem checkDisjoint_eq_ok_iff {seen : List (BlockId × BlockId)} {s : Script} :
    checkDisjoint seen s = .ok () ↔ ∀ id ∈ s.blocks.keys, id ∉ seen.map Prod.fst := by
  unfold checkDisjoint
  rw [forM_eq_ok_iff]
  refine forall₂_congr fun id _ => ?_
  rw [← lookup_eq_none_iff]
  cases seen.lookup id <;> simp

/-- Two scripts have no block in common. -/
def Disjoint (s t : Script) : Prop :=
  ∀ id ∈ s.blocks.keys, id ∉ t.blocks.keys

private theorem checkFrom_eq_ok_iff (scripts : List Script) :
    ∀ seen : List (BlockId × BlockId), checkFrom seen scripts = .ok () ↔ (∀ s ∈ scripts, check s = .ok ()) ∧
      (∀ s ∈ scripts, ∀ id ∈ s.blocks.keys, id ∉ seen.map Prod.fst) ∧ scripts.Pairwise Disjoint := by
  induction scripts with
  | nil => intro seen; simp [checkFrom]
  | cons s rest ih =>
    intro seen
    have hkeys : (seen ++ s.blocks.keys.map fun id => (id, s.top)).map Prod.fst =
        seen.map Prod.fst ++ s.blocks.keys := by
      rw [List.map_append, List.map_map]
      exact congrArg _ (List.map_id _)
    have hstep : checkFrom seen (s :: rest) = .ok () ↔ check s = .ok () ∧ checkDisjoint seen s = .ok () ∧
        checkFrom (seen ++ s.blocks.keys.map fun id => (id, s.top)) rest = .ok () := by
      rw [checkFrom]
      rcases hs : check s with e | u
      · simp [bind, Except.bind]
      · rcases hd : checkDisjoint seen s with e | u <;> simp [bind, Except.bind]
    rw [hstep, ih, hkeys, checkDisjoint_eq_ok_iff, List.forall_mem_cons, List.forall_mem_cons, List.pairwise_cons]
    simp only [List.mem_append, not_or]
    constructor
    · rintro ⟨hcheck, hs, hchecks, hseen, hpair⟩
      exact ⟨⟨hcheck, hchecks⟩, ⟨hs, fun t ht id hid => (hseen t ht id hid).1⟩,
        fun t ht id hid hidt => (hseen t ht id hidt).2 hid, hpair⟩
    · rintro ⟨⟨hcheck, hchecks⟩, ⟨hs, hseen⟩, hdisj, hpair⟩
      exact ⟨hcheck, hs, hchecks, fun t ht id hid => ⟨hseen t ht id hid, fun hids => hdisj t ht id hids hid⟩, hpair⟩

/-- Scripts are valid together exactly if each of them is and no two of them have a block in common. -/
theorem checkAll_eq_ok_iff_check {scripts : List Script} :
    checkAll scripts = .ok () ↔ (∀ s ∈ scripts, check s = .ok ()) ∧ scripts.Pairwise Disjoint := by
  unfold checkAll
  rw [checkFrom_eq_ok_iff]
  simp

/-- Scripts each of which is valid are valid together exactly if no two of them have a block in common. -/
theorem checkAll_eq_ok_iff {scripts : List Script} (h : ∀ s ∈ scripts, check s = .ok ()) :
    checkAll scripts = .ok () ↔ scripts.Pairwise Disjoint :=
  checkAll_eq_ok_iff_check.trans (and_iff_right h)

/-! ### Lookups -/

/-- What breaks off a check that looks up blocks: a defect, or a block that is not there. -/
inductive Stop where
  | defect (defect : Defect)
  | missingKey (id : BlockId)

namespace Lookup

/-- Visits the blocks that the pending ones lead to, as `Validity.walk` does, and looks up each of them. -/
def walk (s : Script) (unvisited : List BlockId) : (pending : List BlockId) → Except Stop (List BlockId)
  | [] => .ok unvisited
  | id :: pending =>
    match s.blocks.get? id with
    | none => .error (.missingKey id)
    | some b =>
      if _h : id ∈ unvisited then walk s (unvisited.erase id) (b.targets.reverse ++ pending)
      else .error (.defect (.reachedTwice id))
termination_by unvisited.length
decreasing_by
  have := List.length_erase_of_mem _h
  have := List.length_pos_of_mem _h
  omega

/-- The first defect of a script, or the first block that the walk does not find. -/
def check (s : Script) : Except Stop Unit := do
  (checkTop s).mapError .defect
  (s.blocks.blocks.forM fun b => b.edges.forM (checkEdge s b)).mapError .defect
  (checkOwners s).mapError .defect
  (s.blocks.blocks.forM (checkParent s)).mapError .defect
  match ← walk s s.blocks.keys [s.top] with
  | [] => return
  | ids => throw (.defect (.unreached ids))

/-- The first of these in some scripts, `seen` being the blocks of the scripts before them. -/
def checkFrom (seen : List (BlockId × BlockId)) : List Script → Except Stop Unit
  | [] => .ok ()
  | s :: rest => do
    check s
    (checkDisjoint seen s).mapError .defect
    checkFrom (seen ++ s.blocks.keys.map fun id => (id, s.top)) rest

/-- The walk finds every block that it looks up if all edges lead to blocks of the script. -/
theorem walk_eq_mapError {s : Script} (hedges : ∀ entry ∈ s.blocks, ∀ id ∈ entry.2.targets, id ∈ s.blocks.keys)
    (unvisited pending : List BlockId) (h : ∀ id ∈ pending, id ∈ s.blocks.keys) :
    walk s unvisited pending = (Validity.walk s unvisited pending).mapError .defect := by
  induction unvisited, pending using Validity.walk.induct s with
  | case1 unvisited =>
    unfold walk Validity.walk
    rfl
  | case2 unvisited id pending hid ih =>
    obtain ⟨hkey, hpending⟩ := List.forall_mem_cons.1 h
    obtain ⟨b, hget⟩ := Arena.exists_get?_of_mem_keys hkey
    have htargets : targetsOf s id = b.targets := by
      rw [targetsOf, hget]
      rfl
    rw [htargets] at ih
    unfold walk Validity.walk
    rw [hget, dif_pos hid, htargets]
    dsimp only
    rw [dif_pos hid]
    refine ih fun target htarget => ?_
    rcases List.mem_append.1 htarget with htarget | htarget
    · exact hedges _ (Arena.mem_of_get?_eq_some hget) target (List.mem_reverse.1 htarget)
    · exact hpending target htarget
  | case3 unvisited id pending hid =>
    obtain ⟨b, hget⟩ := Arena.exists_get?_of_mem_keys (h id List.mem_cons_self)
    unfold walk Validity.walk
    rw [hget, dif_neg hid]
    dsimp only
    rw [dif_neg hid]
    rfl

/-- Behind the other checks the walk finds every block. -/
theorem check_eq_mapError (s : Script) : check s = (Validity.check s).mapError .defect := by
  unfold check Validity.check
  cases htop : checkTop s with
  | error defect => rfl
  | ok =>
    cases hedges : s.blocks.blocks.forM fun b => b.edges.forM (checkEdge s b) with
    | error defect => rfl
    | ok =>
      have hkeys : ∀ entry ∈ s.blocks, ∀ id ∈ entry.2.targets, id ∈ s.blocks.keys := by
        intro entry hentry id hid
        obtain ⟨edge, hedge, rfl⟩ := List.mem_map.1 hid
        have hb := forM_eq_ok_iff.1 hedges entry.2 (List.mem_map.2 ⟨entry, hentry, rfl⟩)
        obtain ⟨c, hget, -⟩ := checkEdge_eq_ok_iff.1 (forM_eq_ok_iff.1 hb edge hedge)
        exact Arena.mem_keys_of_get?_eq_some hget
      have hwalk := walk_eq_mapError hkeys s.blocks.keys [s.top] (by
        intro id hid
        rw [List.mem_singleton.1 hid]
        exact mem_keys_of_checkTop htop)
      rw [hwalk]
      unfold checkReach
      cases checkOwners s with
      | error defect => rfl
      | ok =>
        cases s.blocks.blocks.forM (checkParent s) with
        | error defect => rfl
        | ok =>
          cases Validity.walk s s.blocks.keys [s.top] with
          | error defect => rfl
          | ok left => cases left <;> rfl

theorem checkFrom_eq_mapError (seen : List (BlockId × BlockId)) (scripts : List Script) :
    checkFrom seen scripts = (Validity.checkFrom seen scripts).mapError .defect := by
  induction scripts generalizing seen with
  | nil => rfl
  | cons s rest ih =>
    rw [checkFrom, Validity.checkFrom, check_eq_mapError, ih]
    cases Validity.check s with
    | error defect => rfl
    | ok => cases checkDisjoint seen s <;> rfl

end Lookup

/-- Scripts whose blocks stand under their own ids are valid exactly if no two of them have a block in common and
each of them is a tree.  All others have a defect, and no block that is looked up is ever missing. -/
theorem checkAll_eq_ok_iff_isTree (scripts : List Script) (h : ∀ s ∈ scripts, s.IsStored) :
    (checkAll scripts = .ok () ↔ scripts.Pairwise Disjoint ∧ ∀ s ∈ scripts, s.IsTree) ∧
      (¬(scripts.Pairwise Disjoint ∧ ∀ s ∈ scripts, s.IsTree) →
        ∃ defect, checkAll scripts = .error defect ∧ defect.diagnose.kind = .invalidGraph) ∧
      Lookup.checkFrom [] scripts = (checkAll scripts).mapError .defect := by
  have hiff : checkAll scripts = .ok () ↔ scripts.Pairwise Disjoint ∧ ∀ s ∈ scripts, s.IsTree := by
    rw [checkAll_eq_ok_iff_check, and_comm]
    exact and_congr_right fun _ => forall₂_congr fun s hs => check_eq_ok_iff_isTree (h s hs)
  refine ⟨hiff, fun hnot => ?_, Lookup.checkFrom_eq_mapError [] scripts⟩
  rw [← hiff] at hnot
  cases hcheck : checkAll scripts with
  | error defect => exact ⟨defect, rfl, rfl⟩
  | ok => exact absurd hcheck hnot

/-- A hat, and two commands that follow each other in a circle that the hat does not lead to. -/
def circle : Script :=
  ⟨"hat", Arena.ofBlocks
    [⟨"hat", "event_whenflagclicked", .hat, [], [], none, none, false, by simp⟩,
      ⟨"a", "looks_show", .command, [], [], some "b", some "b", false, by simp⟩,
      ⟨"b", "looks_hide", .command, [], [], some "a", some "a", false, by simp⟩]⟩

/-- A circle beside the hat is a defect. -/
theorem checkAll_eq_ok_iff_isTree_circle : (∀ s ∈ [circle], s.IsStored) ∧
    ¬([circle].Pairwise Disjoint ∧ ∀ s ∈ [circle], s.IsTree) ∧
      ∃ defect, checkAll [circle] = .error defect ∧ defect.diagnose.kind = .invalidGraph := by
  have hstored : ∀ s ∈ [circle], s.IsStored := by
    intro s hs
    obtain rfl := List.mem_singleton.1 hs
    exact ⟨by decide, by decide⟩
  obtain ⟨hiff, herror, -⟩ := checkAll_eq_ok_iff_isTree [circle] hstored
  have hnot := (not_congr hiff).1 (by decide +kernel)
  exact ⟨hstored, hnot, herror hnot⟩

end Validity

end BlockScript
