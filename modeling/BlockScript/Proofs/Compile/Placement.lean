import BlockScript.Proofs.Compile.Diagnosis
import BlockScript.Proofs.Line.Numbered
import BlockScript.Proofs.Outline.Shift
import Mathlib.Logic.Function.Basic

/-!
# Sources that say the same

Where the lines of a source stand does not matter.  Two sources that say the same texts are compiled to the same
scripts, or they are refused for the same fault, which each of them has at the line of the same text
(`result_compileSource_of_texts`).
-/

namespace BlockScript

/-! ### Lines -/

namespace Line

/-- Lines that are made from the same texts are the same lines elsewhere. -/
private theorem exists_map_relocate {lines lines' : List Line}
    (hlines : ∀ line ∈ lines, line = ofText line.text line.number line.column)
    (hlines' : ∀ line ∈ lines', line = ofText line.text line.number line.column)
    (htexts : lines.map text = lines'.map text) (hnumbers : (lines.map number).Nodup) :
    ∃ m, lines' = lines.map (relocate m) := by
  induction lines generalizing lines' with
  | nil => exact ⟨⟨id, column⟩, List.map_eq_nil_iff.1 htexts.symm⟩
  | cons line lines ih =>
    obtain ⟨line', rest, rfl, htext, htexts⟩ := List.map_eq_cons_iff.1 htexts.symm
    rw [List.forall_mem_cons] at hlines hlines'
    rw [List.map_cons, List.nodup_cons] at hnumbers
    obtain ⟨m, rfl⟩ := ih hlines.2 hlines'.2 htexts.symm hnumbers.2
    refine ⟨⟨Function.update m.number line.number line'.number, Function.update m.column line line'.column⟩, ?_⟩
    refine congrArg₂ List.cons ?_ (List.map_congr_left fun other hother => ?_)
    · have hmoved : line' = ofText line.text line'.number line'.column := by
        rw [← htext]
        exact hlines'.1
      have hkind : line.kind = (kindOf line.text).1 := congrArg kind hlines.1
      have hargument : line.argument = (kindOf line.text).2 := congrArg argument hlines.1
      simp only [relocate, Function.update_self]
      rw [hkind, hargument]
      exact hmoved
    · -- The other lines have other numbers, so they are still moved as before.
      have hnumber : other.number ≠ line.number := by
        intro hsame
        exact hnumbers.1 (hsame ▸ List.mem_map_of_mem hother)
      have hline : other ≠ line := fun hsame => hnumber (congrArg number hsame)
      simp only [relocate, Function.update_of_ne hnumber, Function.update_of_ne hline]

/-- The lines of sources that say the same are the same lines elsewhere. -/
theorem exists_significant_eq_map_relocate {a b : Text} (h : texts a = texts b) :
    ∃ m, significant b = (significant a).map (relocate m) :=
  exists_map_relocate (fun _ => eq_ofText_of_mem) (fun _ => eq_ofText_of_mem)
    (by rw [map_text_significant, map_text_significant, h]) (nodup_number_significant a)

end Line

/-! ### Sources -/

variable {o : Options}

/-- The fault of a source is reported at one of its lines. -/
private theorem exists_line_of_read_error (hids : Function.Injective o.ids) {source : Text} {f : LocatedFault}
    (h : Sketch.read o.reader (Line.significant source) = .error f) :
    ∃ line ∈ Line.significant source, f.diagnose.line? = some line.number := by
  obtain ⟨-, before, rest, p, hlines, -, ⟨line, hline, hrefuses⟩ | ⟨-, opener, hopener, hleaves⟩⟩ :=
    exists_of_read_error hids h
  · exact ⟨line, hlines ▸ List.mem_append_right before (List.mem_of_mem_head? hline), hrefuses.line?⟩
  · exact ⟨opener, hlines ▸ List.mem_append_left rest hopener, hleaves.line?⟩

/-- Two sources that say the same are compiled to the same scripts, or they are refused for the same fault.  Each
reports it at its own line of the text at fault: the fault of the one is that of the other, as far down as the line
is. -/
theorem result_compileSource_of_texts (r : Reader) (validate : Bool) {a b : Text} (h : Line.texts a = Line.texts b) :
    (∃ scripts, (compileSource ⟨r, .default⟩ validate a).result = .ok scripts ∧
      (compileSource ⟨r, .default⟩ validate b).result = .ok scripts) ∨
    ∃ f p d d', ∃ (i : Nat) (t : Text) (n n' : Nat), Compile.run ⟨r, .default⟩ (Line.scan a) Progress.start = .error f p ∧
      d = f.diagnose ∧ d' = (f.shift (n' - n)).diagnose ∧ d'.kind = d.kind ∧
      (compileSource ⟨r, .default⟩ validate a).result = .error d ∧
      (compileSource ⟨r, .default⟩ validate b).result = .error d' ∧
      (Line.numbered a)[i]? = some (t, n) ∧ (Line.numbered b)[i]? = some (t, n') ∧
      d.line? = some (n : Int) ∧ d'.line? = some (n' : Int) := by
  have hids : Function.Injective (Options.ids ⟨r, .default⟩) := IdSource.default_injective
  obtain ⟨m, hm⟩ := Line.exists_significant_eq_map_relocate h
  have hreadb : Sketch.read r (Line.significant b) = ((Sketch.read r (Line.significant a)).map
      (List.map (Outline.relocate m))).mapError (LocatedFault.relocate m.number) := by
    rw [hm, Sketch.read_relocate]
  cases hread : Sketch.read r (Line.significant a) with
  | ok outlines =>
    rw [hread] at hreadb
    refine .inl ⟨_, result_compileSource_of_read hids validate hread, ?_⟩
    rw [result_compileSource_of_read hids validate hreadb, Outline.scripts_relocate]
  | error f =>
    rw [hread] at hreadb
    obtain ⟨p, hrun⟩ := Compile.exists_run_error hids hread
    obtain ⟨line, hline, hreported⟩ := exists_line_of_read_error hids hread
    obtain ⟨i, hi⟩ := List.mem_iff_getElem?.1 hline
    have hi' : (Line.significant b)[i]? = some (line.relocate m) := by
      rw [hm, List.getElem?_map, hi, Option.map_some]
    obtain ⟨n, hn, hnumber⟩ := Line.exists_of_getElem?_significant hi
    obtain ⟨n', hn', hnumber'⟩ := Line.exists_of_getElem?_significant hi'
    have hmoved : m.number n = n' := by rw [← hnumber, ← hnumber']; rfl
    rw [hnumber] at hreported
    have hdiagnose : (f.relocate m.number).diagnose = (f.shift (n' - n)).diagnose := by
      rw [LocatedFault.diagnose_relocate hreported, hmoved]
    refine .inr ⟨f, p, _, _, i, line.text, n, n', hrun, rfl, rfl, f.kind_diagnose_shift,
      result_compileSource_of_read_error hids validate hread, ?_, hn, hn', hreported, ?_⟩
    · rw [result_compileSource_of_read_error hids validate hreadb, hdiagnose]
    · rw [← hdiagnose, LocatedFault.line?_diagnose_relocate, hreported, Option.map_some, hmoved]

set_option maxRecDepth 10000 in
/-- A container that is never closed, in a source that is laid out in two ways. -/
theorem result_compileSource_of_texts_forever :
    Line.texts "when flag clicked\nforever\nhide".toList =
      Line.texts "\uFEFFwhen flag clicked\r\n\r\n// Again.\r\n\tforever\r\n\t\thide\r\n".toList ∧
    ∃ f p, ∃ (i : Nat) (t : Text),
      Compile.run ⟨⟨⟨[]⟩, 32⟩, .default⟩ (Line.scan "when flag clicked\nforever\nhide".toList) Progress.start =
        .error f p ∧
      (compileSource ⟨⟨⟨[]⟩, 32⟩, .default⟩ true "when flag clicked\nforever\nhide".toList).result =
        .error f.diagnose ∧
      (compileSource ⟨⟨⟨[]⟩, 32⟩, .default⟩ true
          "\uFEFFwhen flag clicked\r\n\r\n// Again.\r\n\tforever\r\n\t\thide\r\n".toList).result =
        .error (f.shift (4 - 2)).diagnose ∧
      (Line.numbered "when flag clicked\nforever\nhide".toList)[i]? = some (t, 2) ∧
      (Line.numbered "\uFEFFwhen flag clicked\r\n\r\n// Again.\r\n\tforever\r\n\t\thide\r\n".toList)[i]? =
        some (t, 4) := by
  have htexts : Line.texts "when flag clicked\nforever\nhide".toList =
      Line.texts "\uFEFFwhen flag clicked\r\n\r\n// Again.\r\n\tforever\r\n\t\thide\r\n".toList := by
    decide +kernel
  have herror : (compileSource ⟨⟨⟨[]⟩, 32⟩, .default⟩ true "when flag clicked\nforever\nhide".toList).result =
      .error ⟨.unbalancedContainer, "'control_forever' opened at line 2 is never closed with 'end'.",
        some ⟨2, none⟩⟩ := by
    decide +kernel
  have herror' : (compileSource ⟨⟨⟨[]⟩, 32⟩, .default⟩ true
      "\uFEFFwhen flag clicked\r\n\r\n// Again.\r\n\tforever\r\n\t\thide\r\n".toList).result =
      .error ⟨.unbalancedContainer, "'control_forever' opened at line 4 is never closed with 'end'.",
        some ⟨4, none⟩⟩ := by
    decide +kernel
  refine ⟨htexts, ?_⟩
  rcases result_compileSource_of_texts ⟨⟨[]⟩, 32⟩ true htexts with
    ⟨scripts, hok, -⟩ | ⟨f, p, d, d', i, t, n, n', hrun, hd, hd', -, ha, hb, hn, hn', hline, hline'⟩
  · rw [herror] at hok
    cases hok
  · rw [← Except.error.inj (herror.symm.trans ha)] at hline
    rw [← Except.error.inj (herror'.symm.trans hb)] at hline'
    obtain rfl : 2 = n := Int.ofNat_inj.1 (Option.some.inj hline)
    obtain rfl : 4 = n' := Int.ofNat_inj.1 (Option.some.inj hline')
    exact ⟨f, p, i, t, hrun, hd ▸ ha, hd' ▸ hb, hn, hn'⟩

end BlockScript
