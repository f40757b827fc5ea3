import BlockScript.Proofs.Compile.Outcome
import BlockScript.Proofs.Layout.Renaming
import BlockScript.Proofs.Line.Joining
import BlockScript.Proofs.Outline.Joining
import Mathlib.Algebra.GroupWithZero.Nat

/-!
# Sources behind other sources

Scripts do not influence each other.  A source that begins with a `when` line is compiled behind another one as it is
alone (`result_compileSource_append`): it gives the same scripts, with the ids that come next, or the same fault,
further down.
-/

namespace BlockScript

/-! ### Blocks -/

namespace Outline

variable (r : Reader) (ids : IdSource)

theorem length_blocks_script (n : Nat) (o : Outline) : (o.script r ids n).blocks.length = o.size r := by
  have hlength := (@ids_perm r ids n o).length_eq
  simpa [script, Arena.ofBlocks, IdSource.span] using hlength

/-- Scripts take as many ids as they have blocks. -/
theorem sum_length_scripts (n : Nat) (outlines : List Outline) :
    ((scripts r ids n outlines).map (·.blocks.length)).sum = sizes r outlines := by
  induction outlines generalizing n with
  | nil => rfl
  | cons o outlines ih => rw [scripts, List.map_cons, List.sum_cons, length_blocks_script, ih, sizes]

end Outline

/-- The ids from place `k` on are those from the start, renamed. -/
private theorem IdSource.matches_renaming_add {ids : IdSource} (h : Function.Injective ids) (k : Nat) :
    Matches (ids.renaming fun n => ids (n + k)) ids 0 ids (0 + k) := by
  intro i
  rw [renaming_apply h]
  exact congrArg ids (by omega)

/-! ### Sources -/

section Append

variable {r : Reader} {a b : Text} (hb : ∀ line ∈ (Line.significant b).head?, line.kind = .trigger)

include hb

private theorem kind_head_shift (k : Int) :
    ∀ line ∈ ((Line.significant b).map (Line.shift k)).head?, line.kind = .trigger := by
  intro line hline
  rw [List.head?_map] at hline
  obtain ⟨unshifted, hmem, rfl⟩ := Option.map_eq_some_iff.1 hline
  exact hb unshifted hmem

/-- A source that cannot be read is reported the same if a source that begins with a `when` line follows. -/
private theorem exists_read_significant_error {f : LocatedFault}
    (ha : Sketch.read r (Line.significant a) = .error f) :
    ∃ f', Sketch.read r (Line.significant (a ++ '\n' :: b)) = .error f' ∧ f'.diagnose = f.diagnose := by
  rw [Line.significant_append]
  exact Sketch.exists_read_append_error (kind_head_shift hb _) ha

/-- A source that begins with a `when` line is read behind another one as it is alone. -/
private theorem read_significant_append {outlines : List Outline}
    (ha : Sketch.read r (Line.significant a) = .ok outlines) :
    Sketch.read r (Line.significant (a ++ '\n' :: b)) =
      (((Sketch.read r (Line.significant b)).map (List.map (Outline.shift (a.splitOn '\n').length))).mapError
        (LocatedFault.shift (a.splitOn '\n').length)).map (outlines ++ ·) := by
  rw [Line.significant_append, Sketch.read_append (kind_head_shift hb _) ha, Sketch.read_shift]

end Append

/-- A source that begins with a `when` line, or has no line that means something, is compiled behind another one as it
is alone. -/
theorem result_compileSource_append (r : Reader) (validate : Bool) (a b : Text)
    (hb : ∀ line ∈ (Line.significant b).head?, line.kind = .trigger) :
    (∀ d, (compileSource ⟨r, .default⟩ validate a).result = .error d →
      (compileSource ⟨r, .default⟩ validate (a ++ '\n' :: b)).result = .error d) ∧
    ∀ scripts, (compileSource ⟨r, .default⟩ validate a).result = .ok scripts →
      (∀ scripts', (compileSource ⟨r, .default⟩ validate b).result = .ok scripts' →
        (compileSource ⟨r, .default⟩ validate (a ++ '\n' :: b)).result = .ok (scripts ++
          scripts'.map (Script.rename (IdSource.default.renaming fun n =>
            IdSource.default (n + (scripts.map (·.blocks.length)).sum))))) ∧
      ∀ d, (compileSource ⟨r, .default⟩ validate b).result = .error d →
        ∃ f p d', Compile.run ⟨r, .default⟩ (Line.scan b) Progress.start = .error f p ∧ f.diagnose = d ∧
          (compileSource ⟨r, .default⟩ validate (a ++ '\n' :: b)).result = .error d' ∧
          d' = (f.shift (a.splitOn '\n').length).diagnose ∧ d'.kind = d.kind ∧
          d'.line? = d.line?.map (· + ((a.splitOn '\n').length : Int)) := by
  have hids : Function.Injective (Options.ids ⟨r, .default⟩) := IdSource.default_injective
  cases ha : Sketch.read r (Line.significant a) with
  | error f =>
    obtain ⟨f', hread, hdiagnose⟩ := exists_read_significant_error hb ha
    rw [result_compileSource_of_read_error hids validate ha, result_compileSource_of_read_error hids validate hread,
      hdiagnose]
    exact ⟨fun _ h => h, fun _ h => nomatch h⟩
  | ok outlines =>
    have hread := read_significant_append hb ha
    rw [result_compileSource_of_read hids validate ha]
    refine ⟨(fun _ h => nomatch h), fun scripts hscripts => ?_⟩
    rw [← Except.ok.inj hscripts, Outline.sum_length_scripts]
    cases hb' : Sketch.read r (Line.significant b) with
    | error f =>
      rw [hb'] at hread
      obtain ⟨p, hrun⟩ := Compile.exists_run_error hids hb'
      rw [result_compileSource_of_read_error hids validate hb', result_compileSource_of_read_error hids validate hread]
      refine ⟨(fun _ h => nomatch h), fun d hd => ?_⟩
      rw [← Except.error.inj hd]
      exact ⟨f, p, _, hrun, rfl, rfl, rfl, f.kind_diagnose_shift, f.line?_diagnose_shift⟩
    | ok outlines' =>
      rw [hb'] at hread
      rw [result_compileSource_of_read hids validate hb', result_compileSource_of_read hids validate hread]
      refine ⟨fun scripts' hscripts' => ?_, fun _ h => nomatch h⟩
      rw [← Except.ok.inj hscripts', Outline.scripts_append, Outline.scripts_shift,
        Outline.scripts_rename (IdSource.matches_renaming_add hids _)]

set_option maxRecDepth 10000 in
/-- A script behind another one, and a container behind it that is never closed. -/
theorem result_compileSource_append_show :
    (∀ line ∈ (Line.significant "when flag clicked\nhide".toList).head?, line.kind = .trigger) ∧
    (∀ line ∈ (Line.significant "when flag clicked\nforever".toList).head?, line.kind = .trigger) ∧
    ∃ scripts scripts',
      (compileSource ⟨⟨⟨[]⟩, 32⟩, .default⟩ true "when flag clicked\nshow".toList).result = .ok scripts ∧
      (compileSource ⟨⟨⟨[]⟩, 32⟩, .default⟩ true "when flag clicked\nhide".toList).result = .ok scripts' ∧
      scripts.map (·.blocks.length) = [2] ∧ scripts'.map (·.blocks.length) = [2] ∧
      (compileSource ⟨⟨⟨[]⟩, 32⟩, .default⟩ true
        ("when flag clicked\nshow".toList ++ '\n' :: "when flag clicked\nhide".toList)).result =
          .ok (scripts ++ scripts'.map (Script.rename (IdSource.default.renaming fun n =>
            IdSource.default (n + (scripts.map (·.blocks.length)).sum)))) ∧
      ∃ f d, f.diagnose = ⟨.unbalancedContainer, "'control_forever' opened at line 2 is never closed with 'end'.",
          some ⟨2, none⟩⟩ ∧
        (compileSource ⟨⟨⟨[]⟩, 32⟩, .default⟩ true
          ("when flag clicked\nshow".toList ++ '\n' :: "when flag clicked\nforever".toList)).result = .error d ∧
        d = (LocatedFault.shift 2 f).diagnose ∧ d.line? = some 4 := by
  have hhide : ∀ line ∈ (Line.significant "when flag clicked\nhide".toList).head?, line.kind = .trigger := by
    decide +kernel
  have hforever : ∀ line ∈ (Line.significant "when flag clicked\nforever".toList).head?, line.kind = .trigger := by
    decide +kernel
  have herror : (compileSource ⟨⟨⟨[]⟩, 32⟩, .default⟩ true "when flag clicked\nforever".toList).result =
      .error ⟨.unbalancedContainer, "'control_forever' opened at line 2 is never closed with 'end'.",
        some ⟨2, none⟩⟩ := by
    decide +kernel
  obtain ⟨scripts, hscripts, hcount⟩ := @exists_scripts_of_map _
    (compileSource ⟨⟨⟨[]⟩, 32⟩, .default⟩ true "when flag clicked\nshow".toList) (List.map (·.blocks.length)) [2]
    (by decide +kernel)
  obtain ⟨scripts', hscripts', hcount'⟩ := @exists_scripts_of_map _
    (compileSource ⟨⟨⟨[]⟩, 32⟩, .default⟩ true "when flag clicked\nhide".toList) (List.map (·.blocks.length)) [2]
    (by decide +kernel)
  obtain ⟨f, -, d, -, hdiagnose, hd, hshift, -, hline⟩ :=
    ((result_compileSource_append _ _ _ _ hforever).2 scripts hscripts).2 _ herror
  exact ⟨hhide, hforever, scripts, scripts', hscripts, hscripts', hcount, hcount',
    ((result_compileSource_append _ _ _ _ hhide).2 scripts hscripts).1 scripts' hscripts', f, d, hdiagnose, hd, hshift,
    hline⟩

end BlockScript
