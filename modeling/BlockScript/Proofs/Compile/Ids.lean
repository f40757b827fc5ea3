import BlockScript.Proofs.Compile.Outcome
import BlockScript.Proofs.Layout.Renaming

/-!
# Ids do not matter

Compilation depends on its ids only in that they are all different.  With other such ids it ends with the same fault,
or with the same scripts, their ids renamed (`result_compileSource_renaming`): reading the lines draws no ids, and the
layout of what has been read only copies them.
-/

namespace BlockScript

/-- With other ids, compilation ends with the same fault or with the same scripts under these ids. -/
theorem result_compileSource_renaming (r : Reader) (validate : Bool) (source : Text) {f g : IdSource}
    (hf : Function.Injective f) (hg : Function.Injective g) :
    (compileSource ⟨r, g⟩ validate source).result =
      (compileSource ⟨r, f⟩ validate source).result.map (List.map (Script.rename (f.renaming g))) := by
  have hmatches : IdSource.Matches (f.renaming g) f 0 g 0 := fun i => (IdSource.renaming_apply hf g _).symm
  rw [result_compileSource (o := ⟨r, f⟩) hf, result_compileSource (o := ⟨r, g⟩) hg]
  cases Sketch.read r (Line.significant source) with
  | error fault => rfl
  | ok outlines => exact congrArg Except.ok (Outline.scripts_rename hmatches outlines)

set_option maxRecDepth 10000 in
/-- A container and its condition under two kinds of ids. -/
theorem result_compileSource_renaming_repeat : Function.Injective IdSource.default ∧
    Function.Injective (IdSource.sequential "node") ∧ ∃ scripts,
      (compileSource ⟨⟨⟨[]⟩, 32⟩, IdSource.default⟩ true
        "when flag clicked\nrepeat (3)\nhide\nend\nshow".toList).result = .ok scripts ∧
      scripts.map (·.blocks.length) = [5] ∧
      (compileSource ⟨⟨⟨[]⟩, 32⟩, IdSource.sequential "node"⟩ true
        "when flag clicked\nrepeat (3)\nhide\nend\nshow".toList).result =
          .ok (scripts.map (Script.rename (IdSource.default.renaming (IdSource.sequential "node")))) := by
  obtain ⟨scripts, hscripts, hcount⟩ := @exists_scripts_of_map _
    (compileSource ⟨⟨⟨[]⟩, 32⟩, IdSource.default⟩ true
      "when flag clicked\nrepeat (3)\nhide\nend\nshow".toList) (List.map (·.blocks.length)) [5] (by decide +kernel)
  refine ⟨IdSource.default_injective, IdSource.sequential_injective "node", scripts, hscripts, hcount, ?_⟩
  rw [result_compileSource_renaming _ _ _ IdSource.default_injective (IdSource.sequential_injective "node"), hscripts]
  rfl

end BlockScript
