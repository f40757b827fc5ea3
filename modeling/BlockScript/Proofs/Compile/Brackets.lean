import BlockScript.Proofs.Compile.Valid
import BlockScript.Proofs.Phrase.Kept

/-!
# Brackets in compiled scripts

The slots of patterns and of loose forms end at the first closing bracket that lets the rest of the form match, which
need not be the one that belongs to the opening bracket.  So a phrase with a phrase in one of its slots can be cut in
the middle (`exists_unbalanced_text`).  This is the only way in which unbalanced texts come into the scripts of a
source whose lines are balanced: `balanced_texts_of_compileSource_iff`.
-/

namespace BlockScript

open Text

namespace Line

/-! ### Lines -/

private theorem brackets_of_after {start t rest : Text} (hstart : start.brackets = []) (h : after? start t = some rest) :
    rest.brackets = t.brackets := by
  rw [after?_eq_some_iff.1 h, brackets_append, hstart, List.nil_append]

private theorem brackets_kindOf {t argument : Text} (h : (kindOf t).2 = some argument) :
    argument.brackets = t.brackets := by
  rcases cases_of_argument h with h | h | h
  · obtain ⟨rest, condition, hrest, hcondition, rfl⟩ := exists_of_untilArgument h
    rw [brackets_trim, brackets_of_after (by decide) hcondition, brackets_trimLeft,
      brackets_of_after (by decide) hrest]
  · obtain ⟨rest, hrest, rfl⟩ := exists_of_timesArgument h
    rw [brackets_trim, brackets_of_after (by decide) hrest]
  · obtain ⟨middle, hrest, rfl⟩ := exists_of_ifArgument h
    rw [brackets_trim, ← brackets_of_after (by decide) hrest, brackets_append]
    exact (List.append_nil _).symm

private theorem brackets_content (physical : Text) : (content physical).brackets = physical.brackets := by
  have hmark : ∀ c, (c == byteOrderMark) = true → isBracket c = false := by
    intro c hc
    rw [eq_of_beq hc]
    decide
  rw [← brackets_dropWhile hmark physical, content, brackets, List.filter_filter, brackets]
  apply List.filter_congr
  intro c _
  by_cases hc : c = '\r'
  · rw [hc]
    decide
  · simp [hc]

/-- The argument of a line of a text between newlines has the brackets of that text. -/
theorem balanced_argument {number : Nat} {physical argument : Text} {line : Line} (h : Balanced physical)
    (hline : ofRaw? number (content physical) = some line) (hargument : line.argument = some argument) :
    Balanced argument := by
  rw [eq_ofText_of_ofRaw hline] at hargument
  exact (balanced_iff_of_brackets ((brackets_kindOf hargument).trans
    ((brackets_trim _).trans (brackets_content physical)))).2 h

end Line

/-- If the lines of a source are balanced, the texts of its scripts are balanced exactly if whatever is kept of an
unbalanced slot is.  In particular they are if no form cuts out an unbalanced slot. -/
theorem balanced_texts_of_compileSource_iff (o : Options) (validate : Bool) (source : Text) (scripts : List Script)
    (hbalanced : ∀ t ∈ source.splitOn '\n', Balanced t)
    (h : (compileSource o validate source).result = .ok scripts) :
    (∀ s ∈ scripts, ∀ w ∈ s.texts, Balanced w.toList) ↔
      ∀ line ∈ Line.significant source, ∀ k ∈ o.reader.kept line, ∀ slot ∈ k.slot,
        ¬Balanced slot → Balanced k.text := by
  obtain ⟨outlines, hlines, rfl, hr, -⟩ := exists_outlines_of_result h
  have htexts : (∀ s ∈ Outline.scripts o.reader o.ids 0 outlines, ∀ w ∈ s.texts, Balanced w.toList) ↔
      ∀ line ∈ Line.significant source, ∀ w ∈ o.reader.texts line, Balanced w.toList := by
    rw [← hlines] at hr ⊢
    have hmem (w : String) := @Outline.mem_texts_scripts o.ids w o.reader outlines hr 0
    constructor
    · intro hscripts line hline w hw
      obtain ⟨s, hs, hsw⟩ := List.mem_flatMap.1 ((hmem w).2 ⟨line, hline, hw⟩)
      exact hscripts s hs w hsw
    · intro hlines s hs w hw
      obtain ⟨line, hline, hwline⟩ := (hmem w).1 (List.mem_flatMap.2 ⟨s, hs, hw⟩)
      exact hlines line hline w hwline
  rw [htexts]
  refine forall₂_congr fun line hline => (o.reader.balanced_texts_iff line).trans (forall₂_congr fun k hk => ?_)
  constructor
  · intro htext _ _ _
    exact htext
  · intro hkept
    by_cases hslot : ∀ t ∈ k.slot, Balanced t
    · rw [Line.significant_eq_ofPhysicals] at hline
      obtain ⟨physical, hphysical, n, hraw⟩ := Line.mem_ofPhysicals hline
      have hargument : ∀ t ∈ line.argument, Balanced t := fun t ht =>
        Line.balanced_argument (hbalanced physical hphysical) hraw ht
      exact o.reader.isSound_kept hargument k hk hslot
    · obtain ⟨slot, hmem, hslot⟩ : ∃ t ∈ k.slot, ¬Balanced t := by simpa using hslot
      exact hkept slot hmem hslot

set_option maxRecDepth 10000 in
/-- A slot with arithmetic and a phrase in it that is cut out whole. -/
theorem balanced_texts_of_compileSource_iff_say : ∃ scripts,
    (∀ t ∈ "when flag clicked\nsay ((1) + (length of (a)))".toList.splitOn '\n', Balanced t) ∧
      (compileSource ⟨⟨⟨[]⟩, 32⟩, IdSource.default⟩ true
        "when flag clicked\nsay ((1) + (length of (a)))".toList).result = .ok scripts ∧
      ((∀ s ∈ scripts, ∀ w ∈ s.texts, Balanced w.toList) ↔
        ∀ line ∈ Line.significant "when flag clicked\nsay ((1) + (length of (a)))".toList,
          ∀ k ∈ Reader.kept ⟨⟨[]⟩, 32⟩ line, ∀ slot ∈ k.slot, ¬Balanced slot → Balanced k.text) := by
  obtain ⟨scripts, hscripts, -⟩ := @exists_scripts_of_map _
    (compileSource ⟨⟨⟨[]⟩, 32⟩, IdSource.default⟩ true
      "when flag clicked\nsay ((1) + (length of (a)))".toList) List.length 1 (by decide +kernel)
  have hbalanced : ∀ t ∈ "when flag clicked\nsay ((1) + (length of (a)))".toList.splitOn '\n', Balanced t := by
    decide +kernel
  exact ⟨scripts, hbalanced, hscripts, balanced_texts_of_compileSource_iff _ _ _ scripts hbalanced hscripts⟩

set_option maxRecDepth 10000 in
/-- A slot with two phrases in it ends in the middle of the first one. -/
theorem exists_unbalanced_text : ∃ scripts,
    (∀ t ∈ "when flag clicked\nsay (join (join (a) (b)) (c))".toList.splitOn '\n', Balanced t) ∧
      (compileSource ⟨⟨⟨[]⟩, 32⟩, IdSource.default⟩ true
        "when flag clicked\nsay (join (join (a) (b)) (c))".toList).result = .ok scripts ∧
      ¬∀ s ∈ scripts, ∀ w ∈ s.texts, Balanced w.toList := by
  obtain ⟨scripts, hscripts, htexts⟩ := @exists_scripts_of_map _
    (compileSource ⟨⟨⟨[]⟩, 32⟩, IdSource.default⟩ true
      "when flag clicked\nsay (join (join (a) (b)) (c))".toList) (·.flatMap Script.texts) ["join (a", "b)) (c"]
    (by decide +kernel)
  refine ⟨scripts, by decide +kernel, hscripts, fun hbalanced => ?_⟩
  obtain ⟨s, hs, hw⟩ := List.mem_flatMap.1 (htexts ▸ List.mem_cons_self : "join (a" ∈ scripts.flatMap Script.texts)
  exact absurd (hbalanced s hs _ hw) (by decide)

end BlockScript
