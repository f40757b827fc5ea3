import BlockScript.Proofs.Compile.Valid
import BlockScript.Proofs.Layout.Depth

/-!
# Compiled scripts are not nested deeper than the limit

If a source compiles, then no way over inputs is longer than the limit on nesting, if it begins at the block of a line
and enters no body (`le_limit_of_compileSource`).
-/

namespace BlockScript

variable {r : Reader} {ids : IdSource}

namespace Outline

theorem staysWithin_scripts {outlines : List Outline} (h : ∀ line ∈ allLines outlines, r.isReadable line = true)
    {n : Nat} (hn : Distinct r ids n outlines) :
    ∀ s ∈ scripts r ids n outlines, ∀ b ∈ s.blocks.blocks, s.StaysWithin r.limit.toNat b :=
  forall_blocks_scripts h hn staysWithin_script

end Outline

/-- From a hat, a command or a container inputs that hold no bodies lead no further than the limit. -/
theorem le_limit_of_compileSource (o : Options) (validate : Bool) (source : Text) (scripts : List Script)
    (hlimit : 0 ≤ o.reader.limit) (h : (compileSource o validate source).result = .ok scripts) :
    ∀ s ∈ scripts, ∀ b ∈ s.blocks.blocks, b.shape = .hat ∨ b.shape = .command ∨ b.shape = .container →
      ∀ k last, s.Leads b.id k last → (k : Int) ≤ o.reader.limit := by
  obtain ⟨outlines, hlines, rfl, hr, hdistinct⟩ := exists_outlines_of_result h
  rw [← hlines] at hr
  intro s hs b hb hshape k last hleads
  have hoperand : b.shape.isOperand = false := by
    rcases hshape with hshape | hshape | hshape <;> rw [hshape] <;> rfl
  have hle : k ≤ o.reader.limit.toNat := Outline.staysWithin_scripts hr hdistinct s hs b hb hoperand k last hleads
  exact (Int.le_toNat hlimit).1 hle

set_option maxRecDepth 10000 in
/-- Operators in each other, as deep as the limit allows. -/
theorem le_limit_of_compileSource_nested : ∃ scripts,
    (compileSource ⟨⟨⟨NameTable.builtins⟩, 3⟩, IdSource.default⟩ true
      "when flag clicked\nturn right (1 + (2 * 3)) degrees".toList).result = .ok scripts ∧
      scripts.map (·.blocks.length) = [7] ∧
      ∀ s ∈ scripts, ∀ b ∈ s.blocks.blocks, b.shape = .hat ∨ b.shape = .command ∨ b.shape = .container →
        ∀ k last, s.Leads b.id k last → (k : Int) ≤ 3 := by
  obtain ⟨scripts, hscripts, hcount⟩ := @exists_scripts_of_map _
    (compileSource ⟨⟨⟨NameTable.builtins⟩, 3⟩, IdSource.default⟩ true
      "when flag clicked\nturn right (1 + (2 * 3)) degrees".toList) (List.map (·.blocks.length)) [7]
    (by decide +kernel)
  exact ⟨scripts, hscripts, hcount, le_limit_of_compileSource _ _ _ scripts (by decide) hscripts⟩

end BlockScript
