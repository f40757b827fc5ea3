import BlockScript.Proofs.Compile.Joining
import BlockScript.Proofs.Layout.Order
import Mathlib.Algebra.GroupWithZero.Nat
import Mathlib.Logic.Relation

/-!
# The ids that are drawn

Each id that is drawn becomes the id of a block, so none is wasted.  The ids of a script are drawn one after the other,
that of its hat first, and the id of a block is drawn after that of its parent (`ids_of_compileSource`).
-/

namespace BlockScript

namespace Script

/-- The blocks of the script have the ids that are drawn from place `n` on, the hat the first of them.  The id of every
other block is drawn after that of its parent, which is in the script too. -/
structure IsDrawnFrom (ids : IdSource) (n : Nat) (s : Script) : Prop where
  keys : s.blocks.keys.Perm (ids.span n s.blocks.length)
  stored : ∀ entry ∈ s.blocks, entry.2.id = entry.1
  top : s.top = ids n
  top_mem : s.top ∈ s.blocks.keys
  isTop_iff : ∀ b ∈ s.blocks.blocks, b.isTop = true ↔ b.id = ids n
  parent : ∀ b ∈ s.blocks.blocks, (b.id = ids n ∧ b.parent = none) ∨ b.IsUnder ids n (n + s.blocks.length)

/-- In one of some scripts the block `id` is the parent of the block `child`. -/
def IsParent (scripts : List Script) (id child : BlockId) : Prop :=
  ∃ s ∈ scripts, ∃ b ∈ s.blocks.blocks, b.id = child ∧ b.parent = some id

end Script

namespace Outline

variable {r : Reader} {ids : IdSource}

theorem isDrawnFrom_script {n : Nat} {o : Outline} (h : ∀ line ∈ o.lines, r.isReadable line = true)
    (hn : (ids.span n (o.size r)).Nodup) : (o.script r ids n).IsDrawnFrom ids n := by
  have hlength : (o.script r ids n).blocks.length = o.size r := length_blocks_script r ids n o
  constructor
  case keys =>
    rw [hlength]
    exact o.keys_script_perm n
  case stored =>
    intro entry hentry
    obtain ⟨b, -, rfl⟩ := List.mem_map.1 hentry
    rfl
  case top => rfl
  case top_mem =>
    have hsize : 0 < o.size r := by
      rw [size, Phrase.size]
      omega
    obtain ⟨k, hk⟩ := Nat.exists_eq_add_of_lt hsize
    rw [(o.keys_script_perm n).mem_iff, hk, Nat.zero_add, IdSource.span_succ]
    exact List.mem_cons_self
  case isTop_iff =>
    rw [script, Arena.blocks_ofBlocks]
    exact isTop_iff h hn
  case parent =>
    rw [hlength, script, Arena.blocks_ofBlocks]
    exact o.isUnder_blocks n

/-- The scripts take the ids one after the other. -/
theorem isDrawnFrom_scripts {outlines : List Outline} (h : ∀ line ∈ allLines outlines, r.isReadable line = true)
    {n : Nat} (hn : Distinct r ids n outlines) {before after : List Script} {s : Script}
    (hs : scripts r ids n outlines = before ++ s :: after) :
    s.IsDrawnFrom ids (n + (before.map (·.blocks.length)).sum) := by
  induction outlines generalizing n before with
  | nil => simp [scripts] at hs
  | cons o outlines ih =>
    obtain ⟨ho, houtlines⟩ := forall_allLines_cons.1 h
    cases before with
    | nil =>
      obtain ⟨rfl, -⟩ := List.cons.inj hs
      exact isDrawnFrom_script ho hn.1
    | cons first before =>
      obtain ⟨rfl, hrest⟩ := List.cons.inj hs
      have hlater := ih houtlines hn.2 hrest
      rw [List.map_cons, List.sum_cons, length_blocks_script, ← Nat.add_assoc]
      exact hlater

theorem keys_scripts_perm (n : Nat) (outlines : List Outline) :
    ((scripts r ids n outlines).flatMap (·.blocks.keys)).Perm (ids.span n (sizes r outlines)) := by
  induction outlines generalizing n with
  | nil => exact List.Perm.refl _
  | cons o outlines ih =>
    rw [scripts, List.flatMap_cons, sizes, IdSource.span_add]
    exact (o.keys_script_perm n).append (ih (n + o.size r))

end Outline

/-! ### Parents -/

namespace Script

variable {ids : IdSource} {scripts : List Script}

theorem IsParent.exists_places (h : ∀ s ∈ scripts, ∃ n, s.IsDrawnFrom ids n) {id child : BlockId}
    (hparent : IsParent scripts id child) : ∃ i j, i < j ∧ id = ids i ∧ child = ids j := by
  obtain ⟨s, hs, b, hb, rfl, hid⟩ := hparent
  obtain ⟨n, hdrawn⟩ := h s hs
  rcases hdrawn.parent b hb with ⟨-, hnone⟩ | ⟨i, j, -, hij, -, hbid, hparent⟩
  · rw [hnone] at hid
    cases hid
  · exact ⟨i, j, hij, Option.some.inj (hid.symm.trans hparent), hbid⟩

/-- The places of an id source that never repeats grow from a block to those below it. -/
theorem exists_places_of_transGen (hids : Function.Injective ids) (h : ∀ s ∈ scripts, ∃ n, s.IsDrawnFrom ids n)
    {id child : BlockId} (hpath : Relation.TransGen (IsParent scripts) id child) :
    ∃ i j, i < j ∧ id = ids i ∧ child = ids j := by
  induction hpath with
  | single hparent => exact hparent.exists_places h
  | tail _ hparent ih =>
    obtain ⟨i, j, hij, hid, hmiddle⟩ := ih
    obtain ⟨j', k, hjk, hmiddle', hchild⟩ := hparent.exists_places h
    obtain rfl := hids (hmiddle.symm.trans hmiddle')
    exact ⟨i, k, Nat.lt_trans hij hjk, hid, hchild⟩

/-- No block is above itself. -/
theorem not_transGen_isParent (hids : Function.Injective ids) (h : ∀ s ∈ scripts, ∃ n, s.IsDrawnFrom ids n)
    (id : BlockId) : ¬ Relation.TransGen (IsParent scripts) id id := by
  intro hcircle
  obtain ⟨i, j, hij, hi, hj⟩ := exists_places_of_transGen hids h hcircle
  obtain rfl := hids (hi.symm.trans hj)
  exact Nat.lt_irrefl i hij

end Script

/-! ### Sources -/

/-- The blocks of the scripts of a source have all ids that are drawn, each of them once.  Each script has ids that
are drawn one after the other, its hat the first, and every block an id that is drawn after that of its parent. -/
theorem ids_of_compileSource (o : Options) (hids : Function.Injective o.ids) (validate : Bool) (source : Text)
    (scripts : List Script) (h : (compileSource o validate source).result = .ok scripts) :
    ∃ p, Compile.run o (Line.scan source) Progress.start = .ok scripts p ∧
      (scripts.flatMap (·.blocks.keys)).Perm ((List.range p.builder.drawn).map o.ids) ∧
      (scripts.flatMap (·.blocks.keys)).Nodup ∧
      p.builder.drawn = (scripts.map (·.blocks.length)).sum ∧
      (∀ before s after, scripts = before ++ s :: after →
        s.IsDrawnFrom o.ids (before.map (·.blocks.length)).sum) ∧
      (∀ id, ¬ Relation.TransGen (Script.IsParent scripts) id id) ∧
      (o.ids = .default → (scripts.flatMap (·.blocks.keys)).Perm
        ((List.range (scripts.map (·.blocks.length)).sum).map fun n => s!"block_{n + 1}")) := by
  obtain ⟨p, outlines, hrun, hlines, rfl, hr, hdistinct, hdrawn⟩ := exists_run_of_compileSource h
  rw [← hlines] at hr
  have hsum : p.builder.drawn =
      ((Outline.scripts o.reader o.ids 0 outlines).map (·.blocks.length)).sum := by
    rw [hdrawn, Outline.sum_length_scripts]
  have hperm : ((Outline.scripts o.reader o.ids 0 outlines).flatMap (·.blocks.keys)).Perm
      ((List.range p.builder.drawn).map o.ids) := by
    rw [hdrawn, List.range_eq_range']
    exact Outline.keys_scripts_perm 0 outlines
  have hplaces : ∀ before s after, Outline.scripts o.reader o.ids 0 outlines = before ++ s :: after →
      s.IsDrawnFrom o.ids (before.map (·.blocks.length)).sum := by
    intro before s after hs
    have hs := Outline.isDrawnFrom_scripts hr hdistinct hs
    rwa [Nat.zero_add] at hs
  refine ⟨p, hrun, hperm, ?_, hsum, hplaces, ?_, ?_⟩
  · exact hperm.nodup_iff.2 (List.nodup_range.map hids)
  · refine Script.not_transGen_isParent hids fun s hs => ?_
    obtain ⟨before, after, hsplit⟩ := List.append_of_mem hs
    exact ⟨_, hplaces before s after hsplit⟩
  · intro hdefault
    rw [← hsum]
    rw [hdefault] at hperm ⊢
    exact hperm

set_option maxRecDepth 10000 in
/-- Two scripts.  The ids of nested blocks are drawn from the outside to the inside, while the blocks are stored from
the inside to the outside. -/
theorem ids_of_compileSource_nested : Function.Injective IdSource.default ∧ ∃ scripts p,
    (compileSource ⟨⟨⟨[]⟩, 32⟩, .default⟩ true
      "when flag clicked\nsay (pick random (1) to (10))\nwhen flag clicked\nhide".toList).result = .ok scripts ∧
    scripts.map (·.blocks.keys) =
      [["block_1", "block_4", "block_5", "block_3", "block_2"], ["block_6", "block_7"]] ∧
    Compile.run ⟨⟨⟨[]⟩, 32⟩, .default⟩ (Line.scan
      "when flag clicked\nsay (pick random (1) to (10))\nwhen flag clicked\nhide".toList) Progress.start =
        .ok scripts p ∧
    (scripts.flatMap (·.blocks.keys)).Perm ((List.range p.builder.drawn).map IdSource.default) ∧
    (∀ before s after, scripts = before ++ s :: after →
      s.IsDrawnFrom .default (before.map (·.blocks.length)).sum) ∧
    ∀ id, ¬ Relation.TransGen (Script.IsParent scripts) id id := by
  obtain ⟨scripts, hscripts, hkeys⟩ := @exists_scripts_of_map _
    (compileSource ⟨⟨⟨[]⟩, 32⟩, .default⟩ true
      "when flag clicked\nsay (pick random (1) to (10))\nwhen flag clicked\nhide".toList)
    (List.map (·.blocks.keys))
    [["block_1", "block_4", "block_5", "block_3", "block_2"], ["block_6", "block_7"]] (by decide +kernel)
  obtain ⟨p, hrun, hperm, -, -, hplaces, hacyclic, -⟩ :=
    ids_of_compileSource ⟨⟨⟨[]⟩, 32⟩, .default⟩ IdSource.default_injective true _ scripts hscripts
  exact ⟨IdSource.default_injective, scripts, p, hscripts, hkeys, hrun, hperm, hplaces, hacyclic⟩

end BlockScript
