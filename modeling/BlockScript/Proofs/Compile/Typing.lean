import BlockScript.Proofs.Compile.Valid
import BlockScript.Proofs.Layout.Typing

/-!
# Compiled scripts are well typed

Every block of a compiled script fits the operation of its opcode, whatever options the source is compiled with.
-/

namespace BlockScript

variable {r : Reader} {ids : IdSource}

namespace Outline

theorem isTyped_scripts {outlines : List Outline} (h : ∀ line ∈ allLines outlines, r.isReadable line = true) (n : Nat)
    (hn : Distinct r ids n outlines) : ∀ s ∈ scripts r ids n outlines, ∀ b ∈ s.blocks.blocks, s.IsTyped b :=
  forall_blocks_scripts h hn isTyped_script

end Outline

/-- Every block of every compiled script is well typed. -/
theorem isTyped_of_compileSource (o : Options) (validate : Bool) (source : Text) (scripts : List Script)
    (h : (compileSource o validate source).result = .ok scripts) :
    ∀ s ∈ scripts, ∀ b ∈ s.blocks.blocks, s.IsTyped b := by
  obtain ⟨outlines, hlines, rfl, hr, hdistinct⟩ := exists_outlines_of_result h
  exact Outline.isTyped_scripts (by rwa [hlines]) 0 hdistinct

set_option maxRecDepth 10000 in
/-- A script with a comparison, and with a choice in a second body. -/
theorem isTyped_of_compileSource_nested : ∃ scripts,
    (compileSource ⟨⟨⟨NameTable.builtins⟩, 32⟩, IdSource.default⟩ true
      "when flag clicked\nif <size > 5> then\nelse\nstop [all v]\nend".toList).result = .ok scripts ∧
      scripts.length = 1 ∧ ∀ s ∈ scripts, ∀ b ∈ s.blocks.blocks, s.IsTyped b := by
  obtain ⟨scripts, hscripts, hcount⟩ := @exists_scripts_of_map _
    (compileSource ⟨⟨⟨NameTable.builtins⟩, 32⟩, IdSource.default⟩ true
      "when flag clicked\nif <size > 5> then\nelse\nstop [all v]\nend".toList) List.length 1
    (by decide +kernel)
  exact ⟨scripts, hscripts, hcount, isTyped_of_compileSource _ _ _ scripts hscripts⟩

end BlockScript
