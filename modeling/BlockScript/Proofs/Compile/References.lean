import BlockScript.Proofs.Compile.Valid
import BlockScript.Proofs.Layout.Lines
import BlockScript.Proofs.Names.Table
import BlockScript.Proofs.Phrase.Faithful

/-!
# References and literals of compiled scripts

The inputs of a block that refer to a known name keep the first entry of this name in the table.  Where the source has
no quotes, no literal and no colour of a script is a known name (`references_of_compileSource`).
-/

namespace BlockScript

variable {r : Reader} {ids : IdSource} {names : NameTable}

/-- The references of the block are what is found under their names, and it holds no known name as a literal. -/
structure Block.IsFaithful (names : NameTable) (b : Block) : Prop where
  reference : ∀ slot id value kind, Input.reference slot id value kind ∈ b.inputs →
    names.lookup value = some ⟨value, id, kind⟩
  literal : b.shadow = true → isLiteralOpcode b.opcode = true → ∀ field ∈ b.fields, names.lookup field.value = none

/-! ### Terms -/

private theorem Arguments.lookup_of_mem_inputs {slot id value : String} {kind : NameKind} : (a : Arguments) →
    (n : Nat) → a.AreFaithful names → Input.reference slot id value kind ∈ a.inputs ids n →
      names.lookup value = some ⟨value, id, kind⟩
  | .done, _, _, hmem => by cases hmem
  | .input name argument rest, n, h, hmem => by
    obtain ⟨hargument, hrest⟩ := h
    rw [Arguments.inputs, List.mem_append] at hmem
    rcases hmem with hmem | hmem
    · cases argument with
      | reference entry =>
        obtain ⟨-, rfl, rfl, rfl⟩ := Input.reference.inj (List.mem_singleton.1 hmem)
        exact hargument
      | shadow => cases List.mem_singleton.1 hmem
      | nested => cases List.mem_singleton.1 hmem
      | raw => cases List.mem_singleton.1 hmem
      | unreadable => cases hmem
    · exact lookup_of_mem_inputs rest _ hrest hmem
  | .field _ _ rest, n, h, hmem => lookup_of_mem_inputs rest n h hmem

/-- The block of faithful arguments is faithful. -/
private theorem Block.isFaithful_blockOf {op : Operation} {id : BlockId} {a : Arguments} (h : a.AreFaithful names)
    (n : Nat) (parent : Option BlockId) :
    (Build.blockOf op id (a.inputs ids n) a.fields parent).IsFaithful names where
  reference _ _ _ _ hmem := a.lookup_of_mem_inputs n h hmem
  literal hshadow := by cases hshadow

private theorem grants_isFaithful (ids : IdSource) (names : NameTable) : Term.Grants ids (·.IsFaithful names)
    (·.IsFaithful names) (·.AreFaithful names) (fun _ => True) (·.IsFaithful names) where
  apply h := h
  noted h := h
  nested h := h
  input h := h
  field h := h
  operation {_ arguments n owner} h _ := Block.isFaithful_blockOf (a := arguments) h (n + 1) owner
  shadow {shadow value _ _} h := by
    refine ⟨(fun _ _ _ _ hmem => nomatch hmem), fun _ hliteral field hfield => ?_⟩
    obtain rfl := List.mem_singleton.1 hfield
    exact h hliteral

/-- The blocks of faithful arguments are faithful. -/
theorem Arguments.isFaithful_blocks (n : Nat) (owner : BlockId) (a : Arguments) (h : a.AreFaithful names) :
    ∀ b ∈ a.blocks ids n owner, b.IsFaithful names :=
  a.forall_blocks (grants_isFaithful ids names) n owner h fun _ _ => trivial

/-! ### Lines -/

/-- A line has no quotes, and nor has its argument. -/
def Line.IsQuoteless (line : Line) : Prop :=
  line.text.IsQuoteless ∧ ∀ t ∈ line.argument, Text.IsQuoteless t

private theorem mem_of_mem_put {input added : Input} {inputs : List Input}
    (h : input ∈ Keyed.put Input.slot added inputs) : input = added ∨ input ∈ inputs := by
  induction inputs with
  | nil => exact .inl (List.mem_singleton.1 h)
  | cons first inputs ih =>
    unfold Keyed.put at h
    split at h
    · rcases List.mem_cons.1 h with h | h
      · exact .inl h
      · exact .inr (List.mem_cons_of_mem _ h)
    · rcases List.mem_cons.1 h with rfl | h
      · exact .inr List.mem_cons_self
      · exact (ih h).imp_right (List.mem_cons_of_mem _)

/-- The block of a line without quotes stays faithful when bodies are put in. -/
private theorem Block.isFaithful_lasts : Line.Lasts r ids fun line b =>
    line.IsQuoteless → b.shadow = false ∧ b.IsFaithful r.names where
  block line n h := ⟨rfl, isFaithful_blockOf (r.areFaithful_phrase h.1 h.2) (n + 1) none⟩
  placed _ _ _ _ hb h := by
    obtain ⟨hshadow, hfaithful⟩ := hb h
    exact ⟨hshadow, hfaithful.reference, hfaithful.literal⟩
  withBody _ b slot first? hb h := by
    obtain ⟨hshadow, hfaithful⟩ := hb h
    cases first? with
    | none => exact ⟨hshadow, hfaithful⟩
    | some first =>
      refine ⟨hshadow, fun name id value kind hmem => ?_, hfaithful.literal⟩
      rcases mem_of_mem_put hmem with hbody | hmem
      · cases hbody
      · exact hfaithful.reference name id value kind hmem
  otherwise _ b _ hb h := by
    obtain ⟨hshadow, hfaithful⟩ := hb h
    refine ⟨hshadow, hfaithful.reference, fun htrue => ?_⟩
    rw [show b.shadow = true from htrue] at hshadow
    cases hshadow

namespace Outline

theorem isFaithful_script {o : Outline} (h : ∀ line ∈ o.lines, line.IsQuoteless) (n : Nat) :
    ∀ b ∈ (o.script r ids n).blocks.blocks, b.IsFaithful r.names := by
  intro b hb
  rw [script, Arena.blocks_ofBlocks] at hb
  obtain ⟨line, hline, hlasts | ⟨k, hbefore⟩⟩ := exists_line_of_lasts Block.isFaithful_lasts hb
  · exact (hlasts (h line hline)).2
  · obtain ⟨htext, hargument⟩ := h line hline
    exact (r.phrase line).arguments.isFaithful_blocks (k + 1) (ids k) (r.areFaithful_phrase htext hargument) b hbefore

theorem isFaithful_scripts {outlines : List Outline} (h : ∀ line ∈ allLines outlines, line.IsQuoteless) (n : Nat) :
    ∀ s ∈ scripts r ids n outlines, ∀ b ∈ s.blocks.blocks, b.IsFaithful r.names := by
  intro s hs
  obtain ⟨before, o, after, rfl, rfl⟩ := exists_of_mem_scripts hs
  exact isFaithful_script (forall_lines_of_mem h (List.mem_append_right _ List.mem_cons_self)) _

end Outline

/-! ### Sources -/

private theorem subset_of_mem_splitOn {t part : Text} (h : part ∈ t.splitOn '\n') : part ⊆ t := by
  induction t generalizing part with
  | nil =>
    obtain rfl : part = [] := by simpa using h
    exact List.nil_subset _
  | cons c t ih =>
    obtain ⟨first, rest, hsplit⟩ := List.exists_cons_of_ne_nil (List.splitOn_ne_nil '\n' t)
    rw [List.splitOn_cons_eq_if_modifyHead, hsplit] at h
    rw [hsplit] at ih
    split_ifs at h
    · rcases List.mem_cons.1 h with rfl | h
      · exact List.nil_subset _
      · exact List.subset_cons_of_subset c (ih h)
    · rcases List.mem_cons.1 h with rfl | h
      · exact List.cons_subset_cons c (ih List.mem_cons_self)
      · exact List.subset_cons_of_subset c (ih (List.mem_cons_of_mem _ h))

/-- The lines of a source without quotes have none. -/
theorem Line.isQuoteless_of_mem {source : Text} (h : source.IsQuoteless) {line : Line}
    (hline : line ∈ significant source) : line.IsQuoteless := by
  rw [significant_eq_ofPhysicals] at hline
  obtain ⟨physical, hphysical, n, hraw⟩ := mem_ofPhysicals hline
  have hcontent : (content physical).Sublist physical := List.filter_sublist.trans (List.dropWhile_sublist _)
  have hquoteless : (content physical).IsQuoteless :=
    h.of_subset (List.Subset.trans hcontent.subset (subset_of_mem_splitOn hphysical))
  have htext : (Text.trim (content physical)).IsQuoteless := hquoteless.of_isInfix (Text.infix_trim _)
  rw [eq_ofText_of_ofRaw hraw]
  exact ⟨htext, fun argument hargument => htext.of_isInfix (infix_argument hargument)⟩

/-- The first entry of a name stands behind entries of other names. -/
theorem NameTable.exists_of_lookup {name : String} {entry : KnownName} (h : names.lookup name = some entry) :
    ∃ before after, names.entries = before ++ entry :: after ∧ ∀ other ∈ before, other.name ≠ name := by
  obtain ⟨before, after, hentries, -, hothers⟩ := lookup_eq_some_iff.1 h
  exact ⟨before, after, hentries, hothers⟩

theorem NameTable.ne_of_lookup {name : String} (h : names.lookup name = none) :
    ∀ entry ∈ names.entries, entry.name ≠ name :=
  lookup_eq_none_iff.1 h

/-- A table that is built has the global variables first, then the local ones, the properties of a sprite, and the
sprites. -/
theorem NameTable.exists_of_build {globals locals sprites : List NameEntry} {withBuiltins : Bool}
    (h : build globals locals sprites withBuiltins = .ok names) :
    ∃ g l s, globals.mapM (NameEntry.toKnownName .globalVariable) = .ok g ∧
      locals.mapM (NameEntry.toKnownName .localVariable) = .ok l ∧
      sprites.mapM (NameEntry.toKnownName .sprite) = .ok s ∧
      names.entries = g ++ l ++ (if withBuiltins then builtins else []) ++ s :=
  build_eq_ok_iff.1 h

/-- References are the first entries of their names, and without quotes no literal is a known name. -/
theorem references_of_compileSource (o : Options) (validate : Bool) (source : Text) (scripts : List Script)
    (h : (compileSource o validate source).result = .ok scripts) (hquotes : '"' ∉ source ∧ '\'' ∉ source) :
    (∀ s ∈ scripts, ∀ b ∈ s.blocks.blocks,
      (∀ slot id value kind, Input.reference slot id value kind ∈ b.inputs →
        ∃ before after, o.reader.names.entries = before ++ ⟨value, id, kind⟩ :: after ∧
          ∀ entry ∈ before, entry.name ≠ value) ∧
      (b.shadow = true → isLiteralOpcode b.opcode = true →
        ∀ field ∈ b.fields, ∀ entry ∈ o.reader.names.entries, entry.name ≠ field.value)) ∧
    ∀ globals locals sprites withBuiltins,
      NameTable.build globals locals sprites withBuiltins = .ok o.reader.names →
        ∃ g l s, globals.mapM (NameEntry.toKnownName .globalVariable) = .ok g ∧
          locals.mapM (NameEntry.toKnownName .localVariable) = .ok l ∧
          sprites.mapM (NameEntry.toKnownName .sprite) = .ok s ∧
          o.reader.names.entries = g ++ l ++ (if withBuiltins then NameTable.builtins else []) ++ s := by
  obtain ⟨outlines, hlines, rfl, -, -⟩ := exists_outlines_of_result h
  have hquoteless : ∀ line ∈ Outline.allLines outlines, line.IsQuoteless := by
    rw [hlines]
    exact fun line hline => Line.isQuoteless_of_mem hquotes hline
  refine ⟨fun s hs b hb => ⟨fun slot id value kind hmem => ?_, fun hshadow hliteral field hfield => ?_⟩,
    fun _ _ _ _ hbuild => NameTable.exists_of_build hbuild⟩
  · have hfaithful := Outline.isFaithful_scripts hquoteless 0 s hs b hb
    exact NameTable.exists_of_lookup (hfaithful.reference slot id value kind hmem)
  · have hfaithful := Outline.isFaithful_scripts hquoteless 0 s hs b hb
    exact NameTable.ne_of_lookup (hfaithful.literal hshadow hliteral field hfield)

set_option maxRecDepth 10000 in
/-- A name that a global and a local variable share, next to a number and a text. -/
theorem references_of_compileSource_score : ∃ scripts,
    (compileSource ⟨⟨⟨[⟨"score", "g-1", .globalVariable⟩, ⟨"score", "l-1", .localVariable⟩]⟩, 32⟩, .default⟩ true
      "when flag clicked\nif <(score) > 3> then\nsay (join (hi) (score))\nend".toList).result = .ok scripts ∧
    (scripts.flatMap fun s => s.blocks.blocks.flatMap fun b => b.inputs.filter (·.target? = none)) =
      [.reference "OPERAND1" "g-1" "score" .globalVariable, .reference "STRING2" "g-1" "score" .globalVariable] ∧
    ('"' ∉ "when flag clicked\nif <(score) > 3> then\nsay (join (hi) (score))\nend".toList ∧
      '\'' ∉ "when flag clicked\nif <(score) > 3> then\nsay (join (hi) (score))\nend".toList) ∧
    ∀ s ∈ scripts, ∀ b ∈ s.blocks.blocks,
      (∀ slot id value kind, Input.reference slot id value kind ∈ b.inputs →
        ∃ before after, [⟨"score", "g-1", .globalVariable⟩, ⟨"score", "l-1", .localVariable⟩] =
            before ++ (⟨value, id, kind⟩ : KnownName) :: after ∧
          ∀ entry ∈ before, entry.name ≠ value) ∧
      (b.shadow = true → isLiteralOpcode b.opcode = true → ∀ field ∈ b.fields, field.value ≠ "score") := by
  obtain ⟨scripts, hscripts, hreferences⟩ := @exists_scripts_of_map _
    (compileSource ⟨⟨⟨[⟨"score", "g-1", .globalVariable⟩, ⟨"score", "l-1", .localVariable⟩]⟩, 32⟩, .default⟩ true
      "when flag clicked\nif <(score) > 3> then\nsay (join (hi) (score))\nend".toList)
    (List.flatMap fun s => s.blocks.blocks.flatMap fun b => b.inputs.filter (·.target? = none))
    [.reference "OPERAND1" "g-1" "score" .globalVariable, .reference "STRING2" "g-1" "score" .globalVariable]
    (by decide +kernel)
  have hquotes : '"' ∉ "when flag clicked\nif <(score) > 3> then\nsay (join (hi) (score))\nend".toList ∧
      '\'' ∉ "when flag clicked\nif <(score) > 3> then\nsay (join (hi) (score))\nend".toList := by
    decide +kernel
  refine ⟨scripts, hscripts, hreferences, hquotes, fun s hs b hb => ?_⟩
  obtain ⟨hreference, hliteral⟩ := (references_of_compileSource _ _ _ scripts hscripts hquotes).1 s hs b hb
  refine ⟨hreference, fun hshadow hopcode field hfield => ?_⟩
  exact (hliteral hshadow hopcode field hfield _ List.mem_cons_self).symm

end BlockScript
