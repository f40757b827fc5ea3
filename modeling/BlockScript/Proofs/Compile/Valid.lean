import BlockScript.Proofs.Compile.Run
import BlockScript.Proofs.Graph.Validity
import BlockScript.Proofs.Line.Linewise

/-!
# Compiled scripts are valid

The blocks of a script form a tree under its hat (`Outline.forest`), so a script that was compiled has no defect, and
scripts that were compiled together can only have the defect that they share an id.
-/

namespace BlockScript

variable {r : Reader} {ids : IdSource}

namespace Outline

/-- The ids of the blocks of a script are the ids that it takes. -/
theorem ids_perm (n : Nat) (o : Outline) : ((o.blocks r ids n).map Block.id).Perm (ids.span n (o.size r)) := by
  rw [blocks, size, IdSource.span_add, Phrase.size, IdSource.span_succ, List.map_append, List.map_cons]
  refine List.perm_middle.trans ?_
  exact (((r.phrase o.hat).arguments.ids_perm ids (n + 1) (ids n)).append (Item.chained_ids_perm _ _ o.items)).cons _

theorem keys_script_perm (n : Nat) (o : Outline) :
    (o.script r ids n).blocks.keys.Perm (ids.span n (o.size r)) := by
  rw [script, Arena.keys_ofBlocks]
  exact o.ids_perm n

/-- Each block of a script is found under its id if no id comes twice. -/
theorem get?_script {n : Nat} {o : Outline} (hn : (ids.span n (o.size r)).Nodup) {b : Block}
    (hb : b ∈ o.blocks r ids n) : (o.script r ids n).blocks.get? b.id = some b :=
  (Arena.get?_ofBlocks_eq_some_iff ((o.ids_perm n).nodup_iff.2 hn)).2 ⟨hb, rfl⟩

/-- What holds of the blocks of each readable script that are found under their ids holds of those of some scripts. -/
theorem forall_blocks_scripts {P : Script → Block → Prop} {outlines : List Outline}
    (h : ∀ line ∈ allLines outlines, r.isReadable line = true) {n : Nat} (hn : Distinct r ids n outlines)
    (hP : ∀ {s : Script} {k : Nat} {o : Outline}, (∀ line ∈ o.lines, r.isReadable line = true) →
      (∀ b ∈ o.blocks r ids k, s.blocks.get? b.id = some b) → ∀ b ∈ o.blocks r ids k, P s b) :
    ∀ s ∈ scripts r ids n outlines, ∀ b ∈ s.blocks.blocks, P s b := by
  intro s hs
  obtain ⟨o, ho, k, rfl, hk⟩ := exists_outline_of_mem hn hs
  have hblocks : (o.script r ids k).blocks.blocks = o.blocks r ids k := Arena.blocks_ofBlocks _
  rw [hblocks]
  exact hP (forall_lines_of_mem h ho) fun b hb => get?_script hk hb

/-- The blocks of a script form a tree below its hat. -/
theorem forest (n : Nat) {o : Outline} (h : ∀ line ∈ o.lines, r.isReadable line = true) :
    Forest none [ids n] (o.blocks r ids n) := by
  obtain ⟨hhat, hitems⟩ := forall_lines.1 h
  obtain ⟨-, hfits⟩ := Reader.fits_trigger o.isTrigger hhat
  have hbelow := ((r.phrase o.hat).arguments.forest ids (n + 1) (ids n) hfits.arguments_complete).append
    (@Item.forest_chained r ids (n + (r.phrase o.hat).size) (some (ids n)) o.items hitems)
  rw [blocks]
  refine Forest.perm List.perm_middle.symm (Forest.node
    (b := ((r.phrase o.hat).block ids n).placed none (Item.first? ids (n + (r.phrase o.hat).size) o.items)) ?_ ?_)
  · intro id hid
    obtain ⟨c, hc, hstacks⟩ := @Item.exists_first_of_chained r ids _ (some (ids n)) _ _ hitems hid
    exact ⟨rfl, c, List.mem_append_right _ hc, hstacks⟩
  · rw [Block.targets_eq]
    exact hbelow

/-- The hat is the only one. -/
theorem isTop_iff {n : Nat} {o : Outline} (h : ∀ line ∈ o.lines, r.isReadable line = true)
    (hn : (ids.span n (o.size r)).Nodup) : ∀ b ∈ o.blocks r ids n, b.isTop = true ↔ b.id = ids n := by
  obtain ⟨hreadable, hitems⟩ := forall_lines.1 h
  obtain ⟨-, hfits⟩ := Reader.fits_trigger o.isTrigger hreadable
  have hshapes := @Item.shapes_chained r ids (n + (r.phrase o.hat).size) (some (ids n)) o.items hitems
  obtain ⟨hat, hhat, hid, htop⟩ : ∃ hat ∈ o.blocks r ids n, hat.id = ids n ∧ hat.isTop = true := by
    refine ⟨((r.phrase o.hat).block ids n).placed none (Item.first? ids (n + (r.phrase o.hat).size) o.items), ?_,
      rfl, decide_eq_true hfits.shape⟩
    rw [blocks]
    simp
  intro b hb
  constructor
  · intro hbtop
    rw [blocks, List.mem_append, List.mem_cons] at hb
    rcases hb with hb | rfl | hb
    · have hoperand := (r.phrase o.hat).arguments.isOperand_blocks ids _ _ hfits.operands b hb
      exact absurd hbtop (Bool.eq_false_iff.1 (Block.isTop_eq_false (.inl hoperand)))
    · rfl
    · exact absurd hbtop (Bool.eq_false_iff.1 (Block.isTop_eq_false (hshapes b hb)))
  · -- ids do not repeat, so there is no other block under the id of the hat
    intro hbid
    obtain rfl := List.inj_on_of_nodup_map ((o.ids_perm n).nodup_iff.2 hn) hb hhat (hbid.trans hid.symm)
    exact htop

/-- The script of an outline has no defect. -/
theorem check_script {n : Nat} {o : Outline} (h : ∀ line ∈ o.lines, r.isReadable line = true)
    (hn : (ids.span n (o.size r)).Nodup) : Validity.check (o.script r ids n) = .ok () :=
  Validity.check_of_forest rfl ((o.ids_perm n).nodup_iff.2 hn) (forest n h) (isTop_iff h hn)

theorem check_scripts {outlines : List Outline} (h : ∀ line ∈ allLines outlines, r.isReadable line = true) (n : Nat)
    (hn : Distinct r ids n outlines) : ∀ s ∈ scripts r ids n outlines, Validity.check s = .ok () := by
  intro s hs
  obtain ⟨o, ho, k, rfl, hk⟩ := exists_outline_of_mem hn hs
  exact check_script (forall_lines_of_mem h ho) hk

end Outline

/-! ### Sources -/

private theorem result_compileLines {o : Options} {validate : Bool} {source : Text} {scripts : List Script}
    (h : (compileSource o validate source).result = .ok scripts) :
    (compileLines o (Line.scan source)).result = .ok scripts := by
  cases validate with
  | false => exact h
  | true =>
    have hbind : (compileLines o (Line.scan source)).result.bind checked = .ok scripts := h
    cases hresult : (compileLines o (Line.scan source)).result with
    | error e =>
      rw [hresult] at hbind
      cases hbind
    | ok scripts' =>
      rw [hresult] at hbind
      have hchecked : checked scripts' = .ok scripts := hbind
      unfold checked at hchecked
      split at hchecked
      · rw [Except.ok.inj hchecked]
      · cases hchecked

private theorem exists_run_of_result {o : Options} {lines : List Line} {scripts : List Script}
    (h : (compileLines o lines).result = .ok scripts) : ∃ p, Compile.run o lines Progress.start = .ok scripts p := by
  unfold compileLines at h
  split at h
  · rename_i scripts' p hp
    obtain rfl := Except.ok.inj h
    exact ⟨p, hp⟩
  · cases h

/-- If a source compiles, its lines run to the end.  They are those of scripts, can all be read, and give the blocks of
these scripts; as many ids are drawn as there are blocks. -/
theorem exists_run_of_compileSource {o : Options} {validate : Bool} {source : Text} {scripts : List Script}
    (h : (compileSource o validate source).result = .ok scripts) :
    ∃ p outlines, Compile.run o (Line.scan source) Progress.start = .ok scripts p ∧
      Outline.allLines outlines = Line.significant source ∧
      scripts = Outline.scripts o.reader o.ids 0 outlines ∧
      (∀ line ∈ Line.significant source, o.reader.isReadable line = true) ∧
      Outline.Distinct o.reader o.ids 0 outlines ∧ p.builder.drawn = Outline.sizes o.reader outlines := by
  obtain ⟨p, hp⟩ := exists_run_of_result (result_compileLines h)
  obtain ⟨fin, hfin, hscan⟩ := Line.exists_scan_eq source
  rw [hscan] at hp ⊢
  obtain ⟨outlines, hrest⟩ :=
    Compile.exists_outlines_of_run hfin (fun line hline => (Line.kind_ne_finish_of_mem hline).1) hp
  exact ⟨p, outlines, hp, hrest⟩

/-- If a source compiles, its lines are those of scripts, can all be read, and give the blocks of these scripts. -/
theorem exists_outlines_of_result {o : Options} {validate : Bool} {source : Text} {scripts : List Script}
    (h : (compileSource o validate source).result = .ok scripts) :
    ∃ outlines, Outline.allLines outlines = Line.significant source ∧
      scripts = Outline.scripts o.reader o.ids 0 outlines ∧
      (∀ line ∈ Line.significant source, o.reader.isReadable line = true) ∧
      Outline.Distinct o.reader o.ids 0 outlines := by
  obtain ⟨_, outlines, -, hlines, hscripts, hr, hdistinct, -⟩ := exists_run_of_compileSource h
  exact ⟨outlines, hlines, hscripts, hr, hdistinct⟩

theorem exists_scripts_of_map {α : Type} {c : Logged (List Script)} {f : List Script → α} {a : α}
    (h : c.result.toOption.map f = some a) : ∃ scripts, c.result = .ok scripts ∧ f scripts = a := by
  obtain ⟨scripts, hscripts, ha⟩ := Option.map_eq_some_iff.1 h
  refine ⟨scripts, ?_, ha⟩
  cases hresult : c.result with
  | error e =>
    rw [hresult] at hscripts
    cases hscripts
  | ok scripts' =>
    rw [hresult] at hscripts
    exact congrArg Except.ok (Option.some.inj hscripts)

/-- Compiled scripts have no defect but that two of them may have a block of the same id. -/
theorem check_of_compileSource (o : Options) (source : Text) (scripts : List Script)
    (h : (compileSource o false source).result = .ok scripts) :
    (∀ s ∈ scripts, Validity.check s = .ok ()) ∧
      (Validity.checkAll scripts = .ok () ↔ scripts.Pairwise Validity.Disjoint) := by
  obtain ⟨outlines, hlines, rfl, hr, hdistinct⟩ := exists_outlines_of_result h
  have hcheck : ∀ s ∈ Outline.scripts o.reader o.ids 0 outlines, Validity.check s = .ok () :=
    Outline.check_scripts (by rwa [hlines]) 0 hdistinct
  exact ⟨hcheck, Validity.checkAll_eq_ok_iff hcheck⟩

set_option maxRecDepth 10000 in
/-- Two scripts that are built from the same two ids. -/
theorem check_of_compileSource_cycle : ∃ scripts,
    (compileSource ⟨⟨⟨[]⟩, 32⟩, IdSource.cycle ["a", "b"]⟩ false
      "when flag clicked\nhide\nwhen flag clicked\nshow".toList).result = .ok scripts ∧ scripts.length = 2 ∧
      (∀ s ∈ scripts, Validity.check s = .ok ()) ∧
      (Validity.checkAll scripts = .ok () ↔ scripts.Pairwise Validity.Disjoint) := by
  obtain ⟨scripts, hscripts, hcount⟩ := @exists_scripts_of_map _
    (compileSource ⟨⟨⟨[]⟩, 32⟩, IdSource.cycle ["a", "b"]⟩ false
      "when flag clicked\nhide\nwhen flag clicked\nshow".toList) List.length 2 (by decide +kernel)
  exact ⟨scripts, hscripts, hcount, check_of_compileSource _ _ scripts hscripts⟩

end BlockScript
