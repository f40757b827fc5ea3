import BlockScript.Proofs.Compile.Given
import BlockScript.Proofs.Compile.Typing
import BlockScript.Proofs.Expression.Formula
import BlockScript.Proofs.Layout.Lines
import BlockScript.Proofs.Vocabulary.Unambiguous
import Mathlib.Data.Option.Basic

/-!
# Fields that name variables

The commands that set, change, show or hide a variable keep its name in a field, with the id of the first entry of
this name in the table of known names.  The kind of the entry is not looked at.  So the fields that name variables are
known from the lines of a source, and their ids are those of variables exactly if the names in these lines stand for
variables first (`mem_variableFields_iff`): `set [size v] to (5)` changes a variable that does not exist.
-/

namespace BlockScript

/-- Whether names of this kind are those of variables. -/
def NameKind.isVariable : NameKind → Bool
  | globalVariable => true
  | localVariable => true
  | _ => false

namespace NameTable

/-- An id is that of a variable. -/
def HasVariable (table : NameTable) (id : String) : Prop :=
  ∃ entry ∈ table.entries, entry.kind.isVariable = true ∧ entry.id = id

instance (table : NameTable) (id : String) : Decidable (table.HasVariable id) :=
  inferInstanceAs (Decidable (∃ entry ∈ table.entries, _))

/-- The field that names a variable, with the id of the first entry of the name. -/
def variableField (table : NameTable) (name : String) : Field :=
  ⟨"VARIABLE", name, (table.lookup name).map KnownName.id⟩

end NameTable

/-- The operation that a block carries out; a shadow carries out none. -/
def Block.operation? (b : Block) : Option Operation :=
  if b.shadow then none else Vocabulary.get? b.opcode

/-- The fields of a block that name variables. -/
def Block.variableFields (b : Block) : List Field :=
  match b.operation? with
  | none => []
  | some op => b.fields.filter fun field => op.slots.contains ⟨field.slot, .variableName⟩

/-- The fields of a script that name variables. -/
def Script.variableFields (s : Script) : List Field :=
  s.blocks.blocks.flatMap Block.variableFields

/-- The name of the variable that a line sets, changes, shows or hides. -/
def Line.variableName? (line : Line) : Option String := do
  guard (line.kind = .statement)
  let (op, values) ← Vocabulary.lookup [.command] line.text
  let slot ← op.slots.find? (·.kind = .variableName)
  let t ← values.lookup slot.name
  return String.ofList t.bare.dropMarker

theorem Line.kind_of_variableName {line : Line} {name : String} (h : line.variableName? = some name) :
    line.kind = .statement := by
  by_contra hk
  rw [variableName?, guard, if_neg hk] at h
  cases h

/-! ### Operations on variables -/

/-- The name of a variable stands in the first slot of a command, which has no other field. -/
private theorem slots_of_variableName : ∀ op ∈ Vocabulary.all, op.slots.any (·.kind = .variableName) = true →
    op.shape = .command ∧ ∃ slots, op.slots = ⟨"VARIABLE", .variableName⟩ :: slots ∧
      ∀ slot ∈ slots, slot.kind.isField = false := by
  have hall : ∀ op ∈ Vocabulary.all, op.slots.any (·.kind = .variableName) = true →
      op.shape = .command ∧ op.slots.head? = some ⟨"VARIABLE", .variableName⟩ ∧
        ∀ slot ∈ op.slots.tail, slot.kind.isField = false := by
    decide
  intro op hop hany
  obtain ⟨hshape, hhead, htail⟩ := hall op hop hany
  exact ⟨hshape, op.slots.tail, List.eq_cons_of_mem_head? hhead, htail⟩

/-- Only the commands for variables have fields that name some. -/
theorem Script.IsTyped.variableFields_eq_nil {s : Script} {b : Block} (h : s.IsTyped b) (hshape : b.shape ≠ .command) :
    b.variableFields = [] := by
  rw [Block.variableFields, Block.operation?]
  cases hshadow : b.shadow with
  | true => rfl
  | false =>
    obtain ⟨op, hop, hcarries⟩ := h.carries hshadow
    rw [if_neg (by simp), hop]
    refine List.filter_eq_nil_iff.2 fun field _ hslot => hshape ?_
    rw [hcarries.shape]
    refine (slots_of_variableName op (List.mem_of_find?_eq_some hop) ?_).1
    exact List.any_eq_true.2 ⟨_, List.contains_iff_mem.1 hslot, by simp⟩

namespace Reader

variable {r : Reader} {line : Line}

private theorem fields_arguments_eq_nil {value : SlotKind → Text → Argument} {condition : Text → Term}
    {values : Bindings} {slots : List Slot} (h : ∀ slot ∈ slots, slot.kind.isField = false) :
    (r.arguments value condition values slots).fields = [] := by
  induction slots with
  | nil => rfl
  | cons slot slots ih =>
    obtain ⟨hslot, hslots⟩ := List.forall_mem_cons.1 h
    rw [arguments]
    split
    · exact ih hslots
    · dsimp only
      rw [hslot, if_neg (by simp)]
      split_ifs <;> exact ih hslots

theorem inSlot_fieldValue (t : Text) : (r.fieldValue .variableName t).inSlot "VARIABLE" =
    r.names.variableField (String.ofList t.bare.dropMarker) := by
  rw [fieldValue, if_pos rfl, NameTable.variableField]
  cases hlookup : r.names.lookup (String.ofList t.bare.dropMarker) with
  | none => rfl
  | some entry =>
    simp [FieldValue.inSlot, NameTable.name_of_lookup hlookup]

/-- The field of a command for a variable. -/
private theorem fields_arguments {value : SlotKind → Text → Argument} {condition : Text → Term} {values : Bindings}
    {slots : List Slot} {t : Text} (h : ∀ slot ∈ slots, slot.kind.isField = false)
    (ht : values.lookup "VARIABLE" = some t) :
    (r.arguments value condition values (⟨"VARIABLE", .variableName⟩ :: slots)).fields =
      [r.names.variableField (String.ofList t.bare.dropMarker)] := by
  rw [arguments, ht]
  show (r.fieldValue .variableName t).inSlot "VARIABLE" :: (r.arguments value condition values slots).fields = _
  rw [fields_arguments_eq_nil h, inSlot_fieldValue]

/-- A command that can be read has a text for its variable. -/
private theorem exists_lookup_variable {op : Operation} {values : Bindings} {slots : List Slot}
    (hslots : op.slots = ⟨"VARIABLE", .variableName⟩ :: slots) (h : ∀ slot ∈ slots, slot.kind.isField = false)
    (hcomplete : (r.termAt 0 op values).isComplete = true) : ∃ t, values.lookup "VARIABLE" = some t := by
  cases ht : values.lookup "VARIABLE" with
  | some t => exact ⟨t, rfl⟩
  | none =>
    rw [termAt, Term.isComplete, Bool.and_eq_true, Operation.isFilled, Bool.and_eq_true] at hcomplete
    have hmem : ⟨"VARIABLE", .variableName⟩ ∈ op.fieldSlots := by simp [Operation.fieldSlots, hslots, SlotKind.isField]
    have hname := List.contains_iff_mem.1 (List.all_eq_true.1 hcomplete.2.2 _ hmem)
    rw [← Arguments.map_slot_fields, argumentsAt, hslots, arguments, ht] at hname
    dsimp only at hname
    rw [fields_arguments_eq_nil h] at hname
    cases hname

/-- The block of a statement names the variable of the line. -/
theorem variableFields_of_isOf {b : Block} (hk : line.kind = .statement) (hr : r.isReadable line = true)
    (hof : b.IsOf r line) : b.variableFields = (line.variableName?.map r.names.variableField).toList := by
  obtain ⟨values, hlookup⟩ := lookup_statement hk hr
  obtain ⟨hphrase, hreadable⟩ := phrase_statement (r := r) hk hlookup
  have hknown := (Vocabulary.known_of_lookup hlookup).1
  have hoperation : b.operation? = some (r.phrase line).op := by
    rw [Block.operation?, hof.shadow, hof.opcode (by rw [hk]; decide), Vocabulary.get?_of_mem _ hknown]
    rfl
  have hfields : b.fields = (r.argumentsAt 0 (r.phrase line).op values).fields := by
    rw [hof.fields, hphrase]
  rw [hr, eq_comm] at hreadable
  rw [Block.variableFields, hoperation, hfields, Line.variableName?, hk, hlookup]
  generalize (r.phrase line).op = op at hknown hreadable ⊢
  by_cases hany : op.slots.any (·.kind = .variableName) = true
  · obtain ⟨-, slots, hslots, hplain⟩ := slots_of_variableName op hknown hany
    obtain ⟨t, ht⟩ := exists_lookup_variable hslots hplain hreadable
    rw [argumentsAt, hslots, fields_arguments hplain ht]
    simp [NameTable.variableField, guard, hslots, ht]
  · have hnone : op.slots.find? (·.kind = .variableName) = none := by simpa using hany
    have hfilter : (r.argumentsAt 0 op values).fields.filter
        (fun field => op.slots.contains ⟨field.slot, .variableName⟩) = [] := by
      refine List.filter_eq_nil_iff.2 fun field _ hslot => hany ?_
      exact List.any_eq_true.2 ⟨_, List.contains_iff_mem.1 hslot, by simp⟩
    simp [guard, hnone, -List.contains_eq_mem, hfilter]

/-- Only statements say commands, and no line has a command below its arguments. -/
private theorem commands_phrase (hr : r.isReadable line = true) : (r.phrase line).arguments.areOperands = true ∧
    ((r.phrase line).op.shape = .command → line.kind = .statement) := by
  have hopener (opens : line.kind.opens = true) : (r.phrase line).arguments.areOperands = true ∧
      ((r.phrase line).op.shape = .command → line.kind = .statement) := by
    obtain ⟨-, hfits, -⟩ := fits_opener opens hr
    refine ⟨hfits.operands, fun hshape => ?_⟩
    rw [hfits.shape] at hshape
    cases hshape
  have hother (hphrase : r.phrase line = ⟨.forever, .done⟩) : (r.phrase line).arguments.areOperands = true ∧
      ((r.phrase line).op.shape = .command → line.kind = .statement) := by
    rw [hphrase]
    exact ⟨rfl, fun hshape => by cases hshape⟩
  cases hk : line.kind with
  | trigger =>
    obtain ⟨-, hfits⟩ := fits_trigger hk hr
    refine ⟨hfits.operands, fun hshape => ?_⟩
    rw [hfits.shape] at hshape
    cases hshape
  | statement => exact ⟨(fits_statement hk hr).2.operands, fun _ => rfl⟩
  | forever => exact hk ▸ hopener (by rw [hk]; rfl)
  | repeatTimes => exact hk ▸ hopener (by rw [hk]; rfl)
  | repeatUntil => exact hk ▸ hopener (by rw [hk]; rfl)
  | ifThen => exact hk ▸ hopener (by rw [hk]; rfl)
  | _ => exact hk ▸ hother (by unfold phrase instruction; rw [hk])

end Reader

/-! ### Scripts -/

variable {r : Reader} {ids : IdSource} {field : Field}

namespace Outline

/-- The fields of a script that name variables are those of its lines. -/
theorem mem_variableFields_script {n : Nat} {o : Outline} (h : ∀ line ∈ o.lines, r.isReadable line = true)
    (hn : (ids.span n (o.size r)).Nodup) : field ∈ (o.script r ids n).variableFields ↔
      ∃ line ∈ o.lines, ∃ name ∈ line.variableName?, r.names.variableField name = field := by
  have hblocks : (o.script r ids n).blocks.blocks = o.blocks r ids n := Arena.blocks_ofBlocks _
  have htyped := isTyped_script h fun b hb => get?_script hn hb
  have hline {b : Block} {line : Line} (hr : r.isReadable line = true) (hk : line.kind = .statement)
      (hof : b.IsOf r line) : field ∈ b.variableFields ↔ ∃ name ∈ line.variableName?, r.names.variableField name = field := by
    rw [Reader.variableFields_of_isOf hk hr hof]
    simp
  rw [Script.variableFields, hblocks, List.mem_flatMap]
  constructor
  · rintro ⟨b, hb, hfield⟩
    have hshape : b.shape = .command := by
      by_contra hshape
      rw [(htyped b hb).variableFields_eq_nil hshape] at hfield
      cases hfield
    obtain ⟨line, hmem, hof | ⟨m, hbefore⟩⟩ := exists_line_of_mem hb
    · have hk := (Reader.commands_phrase (h line hmem)).2 (hof.shape.symm.trans hshape)
      exact ⟨line, hmem, (hline (h line hmem) hk hof).1 hfield⟩
    · have hoperand := Arguments.isOperand_blocks ids _ _ _ (Reader.commands_phrase (h line hmem)).1 b hbefore
      rw [hshape] at hoperand
      cases hoperand
  · rintro ⟨line, hmem, name, hname, hfield⟩
    have hk := Line.kind_of_variableName hname
    obtain ⟨b, hb, hof⟩ := exists_mem_of_statement hk hmem
    exact ⟨b, hb, (hline (h line hmem) hk hof).2 ⟨name, hname, hfield⟩⟩

theorem mem_variableFields_scripts {outlines : List Outline} (h : ∀ line ∈ allLines outlines, r.isReadable line = true)
    (n : Nat) (hn : Distinct r ids n outlines) : field ∈ (scripts r ids n outlines).flatMap Script.variableFields ↔
      ∃ line ∈ allLines outlines, ∃ name ∈ line.variableName?, r.names.variableField name = field := by
  induction outlines generalizing n with
  | nil => simp [scripts, allLines]
  | cons o outlines ih =>
    obtain ⟨ho, houtlines⟩ := forall_allLines_cons.1 h
    rw [scripts, List.flatMap_cons, List.mem_append, mem_variableFields_script ho hn.1, ih houtlines _ hn.2]
    simp only [allLines, List.flatMap_cons, List.mem_append, or_and_right, exists_or]

end Outline

/-- The fields that name variables are those of the lines that do, each with the id of the first entry of its name.
So their ids are those of variables exactly if the names in the lines stand for variables first. -/
theorem mem_variableFields_iff {o : Options} {validate : Bool} {source : Text} {scripts : List Script}
    (h : (compileSource o validate source).result = .ok scripts) :
    (∀ field, field ∈ scripts.flatMap Script.variableFields ↔ ∃ line ∈ Line.significant source,
      ∃ name ∈ line.variableName?, field = ⟨"VARIABLE", name, (o.reader.names.lookup name).map KnownName.id⟩) ∧
    ((∀ field ∈ scripts.flatMap Script.variableFields, ∀ id ∈ field.id, o.reader.names.HasVariable id) ↔
      ∀ line ∈ Line.significant source, ∀ name ∈ line.variableName?, ∀ entry ∈ o.reader.names.lookup name,
        o.reader.names.HasVariable entry.id) := by
  obtain ⟨outlines, hlines, rfl, hr, hdistinct⟩ := exists_outlines_of_result h
  have hfields : ∀ field, field ∈ (Outline.scripts o.reader o.ids 0 outlines).flatMap Script.variableFields ↔
      ∃ line ∈ Line.significant source, ∃ name ∈ line.variableName?, field = o.reader.names.variableField name := by
    intro field
    rw [Outline.mem_variableFields_scripts (by rwa [hlines]) 0 hdistinct, hlines]
    simp only [eq_comm]
  refine ⟨hfields, fun hall line hline name hname entry hentry => ?_, fun hall field hfield id hid => ?_⟩
  · refine hall _ ((hfields _).2 ⟨line, hline, name, hname, rfl⟩) _ ?_
    rw [NameTable.variableField, Option.mem_def.1 hentry]
    rfl
  · obtain ⟨line, hline, name, hname, rfl⟩ := (hfields field).1 hfield
    obtain ⟨entry, hentry, rfl⟩ := Option.map_eq_some_iff.1 hid
    exact hall line hline name hname entry hentry

/-! ### Setting what a name stands for -/

/-- A script that sets what a name stands for to a number. -/
def setSource (name : Text) : Text :=
  whenClicked ++ '\n' :: ("set [".toList ++ name ++ " v] to (5)".toList)

/-- The command that sets a variable. -/
def Operation.setVariable : Operation :=
  .of "data_setvariableto" .data .command "set [VARIABLE v] to (VALUE)"
    [⟨"VARIABLE", .variableName⟩, ⟨"VALUE", .text⟩]

theorem Operation.setVariable_mem : setVariable ∈ Vocabulary.all :=
  List.mem_of_getElem? (i := 102) rfl

/-- The statement that sets what a name stands for. -/
def settingText (name value : Text) : Text :=
  "set [".toList ++ name ++ (" v] to (".toList ++ value ++ [')'])

private def settingEntries (name value : Text) (slot : String) : Text :=
  if slot = "VARIABLE" then name else value

private theorem filled_setVariable (name value : Text) :
    Operation.setVariable.filled (settingEntries name value) = settingText name value := by
  have hsegments : Pattern.segments Operation.setVariable.pattern.toList = [.spelled "set ".toList,
      .slot ⟨.square, "VARIABLE".toList, true⟩, .spelled " to ".toList, .slot ⟨.round, "VALUE".toList, false⟩,
      .spelled []] := by
    decide
  have hstart : "set [".toList = "set ".toList ++ ['['] := by simp
  have hend : " v] to (".toList = [' ', 'v', ']'] ++ " to ".toList ++ ['('] := by simp
  rw [Operation.filled, Pattern.filled, hsegments, settingText, hstart, hend]
  simp [Segment.filled, Placeholder.fill, Bracket.opener, Bracket.closer, settingEntries]

private theorem setSource_eq (name : Text) : setSource name = whenClicked ++ '\n' :: settingText name ['5'] := by
  have hend : " v] to (5)".toList = " v] to (".toList ++ ['5'] ++ [')'] := by simp
  rw [setSource, settingText, hend]

theorem IsNumeral.isEntry {t : Text} (h : IsNumeral t) : t.IsEntry := by
  have hinner : ∀ c ∈ numeralChars, isInner c = true := List.all_eq_true.1 (by decide)
  exact ⟨Token.isTrimmed_text h.isValid, fun c hc => hinner c (h.chars c hc)⟩

section

variable {r : Reader} {name value : Text} (hname : name.IsEntry) (hvalue : IsNumeral value)

include hvalue

/-- A number is read as it is, or as what a table knows under this name. -/
private theorem isComplete_value (hlimit : 1 ≤ r.limit) : (r.valueAt 1 .text value).isComplete = true := by
  obtain ⟨levels, hlevels⟩ := Reader.exists_levelsAt_one hlimit
  have hbare : value.bare = value := hvalue.isEntry.bare
  obtain ⟨c, rest, hfirst⟩ := List.exists_cons_of_ne_nil hvalue.isEntry.ne_nil
  have hc : c ∉ ['<', '"', '\''] := by
    have hchars : ∀ c ∈ numeralChars, c ∉ ['<', '"', '\''] := Text.forall_of_all (by decide)
    exact hchars c (hvalue.chars c (hfirst ▸ List.mem_cons_self))
  rw [Reader.valueAt, hlevels]
  show (r.valueStep _ _ (.literal .text) _).isComplete = true
  cases hlookup : r.names.lookup (String.ofList value) with
  | some entry =>
    rw [Reader.valueStep_known (by rw [hbare]; exact hlookup)]
    rfl
  | none =>
    rw [Reader.valueStep_unknown (by rw [hbare]; exact hlookup) (hbare.trans hfirst) hc, hbare, Reader.reporterTerm?,
      Reader.reporter?_eq_none_of_isNumeral hvalue]
    rfl

/-- The text stands on a line of its own. -/
theorem ofPhysical?_settingText (hreturn : '\r' ∉ name) :
    Line.ofPhysical? 2 (settingText name value) = some (.ofText (settingText name value) 2 1) := by
  refine Line.ofPhysical?_between (by decide) (by rw [List.getLast?_append]; rfl) ?_ 2
  have hchars : '\r' ∉ numeralChars := by decide
  have hdigits : '\r' ∉ value := fun hmem => hchars (hvalue.chars _ hmem)
  simp [hreturn, hdigits]

include hname

theorem not_mem_settingText : '\n' ∉ settingText name value := by
  simp [settingText, hname.oneLine, hvalue.isEntry.oneLine]

/-- The statement is read as the command that sets a variable. -/
theorem lookup_settingText (number column : Int) : (Line.ofText (settingText name value) number column).kind = .statement ∧
    Vocabulary.lookup [.command] (settingText name value) =
      some (.setVariable, [("VARIABLE", name), ("VALUE", value)]) := by
  have htakes : ∀ slot ∈ Operation.setVariable.slots, slot.Takes (settingEntries name value slot.name) := by
    rintro slot (_ | ⟨_, _ | ⟨_, ⟨⟩⟩⟩)
    · exact hname
    · exact hvalue.isEntry
  rw [← filled_setVariable]
  exact ⟨congrArg Prod.fst (Vocabulary.kindOf_filled_of_command Operation.setVariable_mem rfl htakes),
    Vocabulary.lookup_filled Operation.setVariable_mem htakes fun h => absurd h (by decide)⟩

/-- The statement sets the variable of the name to a value, and it can be read. -/
theorem phrase_settingText (hlimit : 1 ≤ r.limit) (number column : Int) :
    r.phrase (.ofText (settingText name value) number column) =
        ⟨.setVariable, .field "VARIABLE" (r.fieldValue .variableName name)
          (.input "VALUE" (r.valueAt 1 .text value) .done)⟩ ∧
      r.isReadable (.ofText (settingText name value) number column) = true := by
  obtain ⟨hk, hlookup⟩ := lookup_settingText hname hvalue number column
  have harguments : r.argumentsAt 0 .setVariable [("VARIABLE", name), ("VALUE", value)] =
      .field "VARIABLE" (r.fieldValue .variableName name) (.input "VALUE" (r.valueAt 1 .text value) .done) := by
    simp [Reader.argumentsAt, Reader.arguments, Operation.setVariable, Operation.of, SlotKind.isField, List.lookup_cons]
  have hfilled : Operation.setVariable.isFilled ["VALUE"] ["VARIABLE"] = true := by decide
  obtain ⟨hphrase, hreadable⟩ := Reader.phrase_statement (r := r) hk hlookup
  refine ⟨hphrase.trans (congrArg _ harguments), ?_⟩
  rw [hreadable, Reader.termAt, harguments]
  simp [Term.isComplete, Arguments.isComplete, Arguments.inputNames, Arguments.fieldNames, hfilled,
    isComplete_value hvalue hlimit]

end

/-- Whatever a name stands for, setting it takes the id of its first entry. -/
theorem variableFields_setSource {o : Options} (hids : Function.Injective o.ids) (hlimit : 1 ≤ o.reader.limit)
    {name : Text} (hname : name.IsEntry) (hreturn : '\r' ∉ name) (validate : Bool) :
    ∃ scripts, (compileSource o validate (setSource name)).result = .ok scripts ∧
      ∀ field, field ∈ scripts.flatMap Script.variableFields ↔
        field = o.reader.names.variableField (String.ofList name.dropMarker) := by
  have hfive : IsNumeral ['5'] :=
    ⟨[], ['5'], [], rfl, .inl rfl, ⟨by simp, List.forall_mem_singleton.2 (by decide)⟩, .inl rfl⟩
  obtain ⟨hk, hlookup⟩ := lookup_settingText hname hfive 2 1
  obtain ⟨-, hreadable⟩ := phrase_settingText (r := o.reader) hname hfive hlimit 2 1
  have hline := ofPhysical?_settingText hfive hreturn
  have htext := not_mem_settingText hname hfive
  have hlines := Outline.allLines_single htext hline hk
  have hsource : Line.significant (setSource name) =
      [.ofText whenClicked 1 1, .ofText (settingText name ['5']) 2 1] := by
    rw [setSource_eq, Line.significant_when htext, hline]
    rfl
  rw [← setSource_eq] at hlines
  have hr : ∀ line ∈ Outline.allLines [.single _ hk], o.reader.isReadable line = true := by
    rw [hlines, hsource]
    simpa using ⟨o.reader.isReadable_whenClicked, hreadable⟩
  refine ⟨_, result_of_outlines hids validate hlines hr, fun field => ?_⟩
  rw [Outline.mem_variableFields_scripts hr 0 (Outline.distinct_of_injective hids 0 _), hlines, hsource]
  have hnone : (Line.ofText whenClicked 1 1).variableName? = none := by
    rw [Option.eq_none_iff_forall_ne_some]
    intro name hname
    cases (by decide : (Line.ofText whenClicked 1 1).kind = .trigger).symm.trans (Line.kind_of_variableName hname)
  have hvariable : (Line.ofText (settingText name ['5']) 2 1).variableName? = some (String.ofList name.dropMarker) := by
    rw [Line.variableName?, hk]
    simp [guard, Line.ofText, hlookup, Operation.setVariable, Operation.of, hname.bare]
  simp [hnone, hvariable, eq_comm]

/-- A property of a sprite is set like a variable. -/
theorem variableField_of_builtin : ∃ scripts,
    (compileSource ⟨⟨.default, Reader.defaultLimit⟩, .default⟩ true (setSource "size".toList)).result = .ok scripts ∧
      ⟨"VARIABLE", "size", some "looks_size"⟩ ∈ scripts.flatMap Script.variableFields ∧
      ¬NameTable.default.HasVariable "looks_size" := by
  obtain ⟨scripts, hscripts, hfields⟩ :=
    @variableFields_setSource ⟨⟨.default, Reader.defaultLimit⟩, .default⟩ IdSource.default_injective (by decide)
      "size".toList (by decide) (by decide) true
  exact ⟨scripts, hscripts, (hfields _).2 (by decide), by decide⟩

/-- A variable of the project. -/
theorem mem_variableFields_iff_score : ∃ scripts,
    (compileSource ⟨⟨⟨[⟨"score", "id-1", .globalVariable⟩]⟩, 2⟩, .default⟩ true (setSource "score".toList)).result =
      .ok scripts ∧ ⟨"VARIABLE", "score", some "id-1"⟩ ∈ scripts.flatMap Script.variableFields ∧
      ∃ line ∈ Line.significant (setSource "score".toList), line.variableName? = some "score" := by
  obtain ⟨scripts, hscripts, hfields⟩ :=
    @variableFields_setSource ⟨⟨⟨[⟨"score", "id-1", .globalVariable⟩]⟩, 2⟩, .default⟩ IdSource.default_injective
      (by decide) "score".toList (by decide) (by decide) true
  have hfield : ⟨"VARIABLE", "score", some "id-1"⟩ ∈ scripts.flatMap Script.variableFields :=
    (hfields _).2 (by decide)
  obtain ⟨line, hline, name, hname, hvalue⟩ := ((mem_variableFields_iff hscripts).1 _).1 hfield
  obtain rfl : "score" = name := congrArg Field.value hvalue
  exact ⟨scripts, hscripts, hfield, line, hline, hname⟩

end BlockScript
