import BlockScript.Proofs.Compile.Typing
import BlockScript.Proofs.Graph.Encoding

/-!
# Compiled scripts as JSON

The blocks of compiled scripts have the shapes of the operations of their opcodes, so compiled scripts are known from
their JSON (`eq_of_listToJson_of_compileSource`).
-/

namespace BlockScript

variable {r : Reader} {ids : IdSource}

/-- A well typed block has the shape of its operation. -/
theorem Script.IsTyped.isOfVocabulary {s : Script} {b : Block} (h : s.IsTyped b) : b.IsOfVocabulary := by
  intro hshadow
  obtain ⟨op, hop, hcarries⟩ := h.carries hshadow
  rw [hop, hcarries.shape]
  rfl

theorem Outline.isOfVocabulary_scripts {outlines : List Outline}
    (h : ∀ line ∈ allLines outlines, r.isReadable line = true) {n : Nat} (hn : Distinct r ids n outlines) :
    ∀ s ∈ scripts r ids n outlines, s.IsOfVocabulary :=
  fun s hs b hb => (isTyped_scripts h n hn s hs b hb).isOfVocabulary

theorem isOfVocabulary_of_result {o : Options} {validate : Bool} {source : Text} {scripts : List Script}
    (h : (compileSource o validate source).result = .ok scripts) : ∀ s ∈ scripts, s.IsOfVocabulary := by
  obtain ⟨outlines, hlines, rfl, hr, hdistinct⟩ := exists_outlines_of_result h
  rw [← hlines] at hr
  exact Outline.isOfVocabulary_scripts hr hdistinct

/-- Scripts that were compiled, from whatever sources and with whatever options, are equal if their JSON is. -/
theorem eq_of_listToJson_of_compileSource (o o' : Options) (validate validate' : Bool) (source source' : Text)
    (scripts scripts' : List Script) (h : (compileSource o validate source).result = .ok scripts)
    (h' : (compileSource o' validate' source').result = .ok scripts')
    (hjson : Script.listToJson scripts = Script.listToJson scripts') : scripts = scripts' :=
  Script.eq_of_listToJson (isOfVocabulary_of_result h) (isOfVocabulary_of_result h') hjson

set_option maxRecDepth 10000 in
/-- Two sources whose scripts have the same JSON. -/
theorem eq_of_listToJson_of_compileSource_say : ∃ scripts scripts',
    (compileSource ⟨⟨⟨[]⟩, 32⟩, .default⟩ true "when flag clicked\nsay [hello]".toList).result = .ok scripts ∧
    (compileSource ⟨⟨⟨NameTable.builtins⟩, 5⟩, .sequential "block"⟩ false
      "# greeting\nwhen flag clicked\n\n  say (hello)".toList).result = .ok scripts' ∧
    scripts.map (·.blocks.length) = [3] ∧
    Script.listToJson scripts = Script.listToJson scripts' ∧ scripts = scripts' := by
  obtain ⟨scripts, hscripts, hcount⟩ := @exists_scripts_of_map _
    (compileSource ⟨⟨⟨[]⟩, 32⟩, .default⟩ true "when flag clicked\nsay [hello]".toList) (List.map (·.blocks.length))
    [3] (by decide +kernel)
  have hboth : (compileSource ⟨⟨⟨[]⟩, 32⟩, .default⟩ true "when flag clicked\nsay [hello]".toList).result =
      (compileSource ⟨⟨⟨NameTable.builtins⟩, 5⟩, .sequential "block"⟩ false
        "# greeting\nwhen flag clicked\n\n  say (hello)".toList).result := by
    decide +kernel
  have hscripts' := hboth.symm.trans hscripts
  exact ⟨scripts, scripts, hscripts, hscripts', hcount, rfl,
    eq_of_listToJson_of_compileSource _ _ _ _ _ _ scripts scripts hscripts hscripts' rfl⟩

end BlockScript
