import BlockScript.Proofs.Compile.Variables

/-!
# The mark of a dropdown

In `set [… v] to (0)` and `switch costume to (… v)` the mark of the dropdown is no part of the name in front of it.  It
is removed twice: the form of the pattern leaves it out of the text of the slot, and what is left loses another mark
when the slot is filled.  So the name of a variable or a costume is found as it is written unless it ends in a mark
itself (`keeps_name_iff`): `set [x v v] to (0)` sets `x`, not `x v`.
-/

namespace BlockScript

namespace Text

/-- Only a text that ends in a mark loses it. -/
theorem dropMarker_eq_self_iff {t : Text} : t.dropMarker = t ↔ ¬[' ', 'v'] <:+ t := by
  unfold dropMarker
  split
  · rename_i hmark
    have hsuffix := List.isSuffixOf_iff_suffix.1 hmark
    refine iff_of_false (fun heq => ?_) (not_not_intro hsuffix)
    have hlength := length_trimRight_le (t.take (t.length - 2))
    have hpos := hsuffix.length_le
    rw [heq, List.length_take, List.length_cons, List.length_singleton] at *
    omega
  · rename_i hmark
    exact iff_of_true rfl fun hsuffix => hmark (List.isSuffixOf_iff_suffix.2 hsuffix)

end Text

namespace NameTable

/-- The input that shows a name: a reference to its first entry, or a menu. -/
def menuInput (table : NameTable) (slot : String) (menu : BlockId) (name : String) : Input :=
  match table.lookup name with
  | some entry => .reference slot entry.id entry.name entry.kind
  | none => .block slot .menu menu

variable {table : NameTable} {name : String} {entry : KnownName}

/-- An entry is named by its own name only. -/
theorem variableField_eq_iff (h : table.lookup name = some entry) (name' : String) :
    table.variableField name' = ⟨"VARIABLE", name, some entry.id⟩ ↔ name' = name := by
  constructor
  · intro heq
    exact congrArg Field.value heq
  · rintro rfl
    rw [variableField, h]
    rfl

theorem menuInput_eq_iff (h : table.lookup name = some entry) (slot : String) (menu : BlockId) (name' : String) :
    table.menuInput slot menu name' = .reference slot entry.id entry.name entry.kind ↔ name' = name := by
  constructor
  · intro heq
    unfold menuInput at heq
    cases hlookup : table.lookup name' with
    | none =>
      rw [hlookup] at heq
      cases heq
    | some entry' =>
      rw [hlookup] at heq
      injection heq with _ _ hname
      rw [← name_of_lookup hlookup, hname, name_of_lookup h]
  · rintro rfl
    rw [menuInput, h]

end NameTable

/-- A script that sets what a name stands for to zero. -/
def resetSource (name : Text) : Text :=
  whenClicked ++ '\n' :: ("set [".toList ++ name ++ " v] to (0)".toList)

/-- A script that switches to the costume of a name. -/
def costumeSource (name : Text) : Text :=
  whenClicked ++ '\n' :: ("switch costume to (".toList ++ name ++ " v)".toList)

/-! ### Costumes -/

private def switchCostume : Operation :=
  .of "looks_switchcostumeto" .looks .command "switch costume to (COSTUME v)" [⟨"COSTUME", .menu .costume⟩]

private theorem switchCostume_mem : switchCostume ∈ Vocabulary.all :=
  List.mem_of_getElem? (i := 31) rfl

private theorem filled_switchCostume (name : Text) :
    switchCostume.filled (fun _ => name) = "switch costume to (".toList ++ name ++ " v)".toList := by
  have hsegments : Pattern.segments switchCostume.pattern.toList = [.spelled "switch costume to ".toList,
      .slot ⟨.round, "COSTUME".toList, true⟩, .spelled []] := by
    decide
  have hstart : "switch costume to (".toList = "switch costume to ".toList ++ ['('] := by simp
  have hend : " v)".toList = [' ', 'v', ')'] := by simp
  rw [Operation.filled, Pattern.filled, hsegments, hstart, hend]
  simp [Segment.filled, Placeholder.fill, Bracket.opener, Bracket.closer]

/-- The statement switches to what the name stands for, and it can be read. -/
private theorem phrase_switchCostume {r : Reader} {name : Text} (hname : name.IsEntry) (hlimit : 1 ≤ r.limit)
    {line : Line} (hline : line = .ofText (switchCostume.filled fun _ => name) 2 1) :
    line.kind = .statement ∧ r.phrase line = ⟨switchCostume, .input "COSTUME" (r.valueAt 1 (.menu .costume) name) .done⟩ ∧
      r.isReadable line = true := by
  have htakes : ∀ slot ∈ switchCostume.slots, slot.Takes name := by
    intro slot hslot
    obtain rfl := List.mem_singleton.1 hslot
    exact hname
  have hk : line.kind = .statement := by
    rw [hline]
    exact congrArg Prod.fst (@Vocabulary.kindOf_filled_of_command _ (fun _ => name) switchCostume_mem rfl htakes)
  have hlookup : Vocabulary.lookup [.command] line.text = some (switchCostume, [("COSTUME", name)]) := by
    rw [hline]
    exact @Vocabulary.lookup_filled _ (fun _ => name) switchCostume_mem htakes fun h => absurd h (by decide)
  have harguments : r.argumentsAt 0 switchCostume [("COSTUME", name)] =
      .input "COSTUME" (r.valueAt 1 (.menu .costume) name) .done := by
    simp [Reader.argumentsAt, Reader.arguments, switchCostume, Operation.of, SlotKind.isField]
  have hvalue : (r.valueAt 1 (.menu .costume) name).isComplete = true := by
    rw [Reader.valueAt_menu hlimit _ hname.bare]
    cases r.names.lookup (String.ofList name.dropMarker) <;> rfl
  have hfilled : switchCostume.isFilled ["COSTUME"] [] = true := by decide
  obtain ⟨hphrase, hreadable⟩ := Reader.phrase_statement (r := r) hk hlookup
  refine ⟨hk, hphrase.trans (congrArg _ harguments), ?_⟩
  rw [hreadable, Reader.termAt, harguments]
  simp [Term.isComplete, Arguments.isComplete, Arguments.inputNames, Arguments.fieldNames, hfilled, hvalue]

/-! ### The two scripts -/

section

variable {o : Options} {name : Text} (hids : Function.Injective o.ids) (hlimit : 1 ≤ o.reader.limit)
  (hname : name.IsEntry) (hreturn : '\r' ∉ name) (validate : Bool)

include hids hlimit hname hreturn

/-- The field of the variable loses a mark at the end of the name. -/
theorem second?_resetSource : ∃ script b, (compileSource o validate (resetSource name)).result = .ok [script] ∧
    script.second? = some b ∧ b.opcode = "data_setvariableto" ∧
    Keyed.get? Field.slot "VARIABLE" b.fields =
      some (o.reader.names.variableField (String.ofList name.dropMarker)) := by
  have hzero : IsNumeral ['0'] :=
    ⟨[], ['0'], [], rfl, .inl rfl, ⟨by simp, List.forall_mem_singleton.2 (by decide)⟩, .inl rfl⟩
  have hsource : resetSource name = whenClicked ++ '\n' :: settingText name ['0'] := by
    have hend : " v] to (0)".toList = " v] to (".toList ++ ['0'] ++ [')'] := by simp
    rw [resetSource, settingText, hend]
  obtain ⟨hk, -⟩ := lookup_settingText hname hzero 2 1
  obtain ⟨hphrase, hreadable⟩ := phrase_settingText (r := o.reader) hname hzero hlimit 2 1
  obtain ⟨script, n, hresult, hsecond⟩ := exists_script_of_statement (not_mem_settingText hname hzero)
    (ofPhysical?_settingText hzero hreturn) hk hids hreadable validate
  rw [← hsource] at hresult
  refine ⟨script, _, hresult, hsecond, ?_⟩
  rw [hphrase]
  refine ⟨rfl, ?_⟩
  show Keyed.get? Field.slot "VARIABLE" [(o.reader.fieldValue .variableName name).inSlot "VARIABLE"] = _
  rw [Reader.inSlot_fieldValue, hname.bare]
  rfl

/-- The input of the costume loses a mark at the end of the name. -/
theorem second?_costumeSource : ∃ script b menu,
    (compileSource o validate (costumeSource name)).result = .ok [script] ∧
    script.second? = some b ∧ b.opcode = "looks_switchcostumeto" ∧
    Keyed.get? Input.slot "COSTUME" b.inputs =
      some (o.reader.names.menuInput "COSTUME" menu (String.ofList name.dropMarker)) := by
  have hline : Line.ofPhysical? 2 ("switch costume to (".toList ++ name ++ " v)".toList) =
      some (.ofText ("switch costume to (".toList ++ name ++ " v)".toList) 2 1) :=
    Line.ofPhysical?_between (by decide) (by decide) (by simp [hreturn]) 2
  have htext : '\n' ∉ "switch costume to (".toList ++ name ++ " v)".toList := by simp [hname.oneLine]
  rw [← filled_switchCostume] at hline htext
  obtain ⟨hk, hphrase, hreadable⟩ := phrase_switchCostume hname hlimit rfl
  obtain ⟨script, n, hresult, hsecond⟩ := exists_script_of_statement htext hline hk hids hreadable validate
  rw [filled_switchCostume] at hresult
  refine ⟨script, _, o.ids (n + 1), hresult, hsecond, ?_⟩
  rw [hphrase, Reader.valueAt_menu hlimit _ hname.bare]
  refine ⟨rfl, ?_⟩
  unfold NameTable.menuInput
  cases o.reader.names.lookup (String.ofList name.dropMarker) <;> rfl

/-- A variable or a costume is found under its name exactly if the name does not end in the mark of a dropdown; else it
is looked up without this mark. -/
theorem keeps_name_iff {entry : KnownName} (hentry : o.reader.names.lookup (String.ofList name) = some entry) :
    (∃ script b, (compileSource o validate (resetSource name)).result = .ok [script] ∧ script.second? = some b ∧
      b.opcode = "data_setvariableto" ∧
      Keyed.get? Field.slot "VARIABLE" b.fields =
        some (o.reader.names.variableField (String.ofList name.dropMarker)) ∧
      (Keyed.get? Field.slot "VARIABLE" b.fields = some ⟨"VARIABLE", String.ofList name, some entry.id⟩ ↔
        ¬[' ', 'v'] <:+ name)) ∧
    ∃ script b menu, (compileSource o validate (costumeSource name)).result = .ok [script] ∧ script.second? = some b ∧
      b.opcode = "looks_switchcostumeto" ∧
      Keyed.get? Input.slot "COSTUME" b.inputs =
        some (o.reader.names.menuInput "COSTUME" menu (String.ofList name.dropMarker)) ∧
      (Keyed.get? Input.slot "COSTUME" b.inputs = some (.reference "COSTUME" entry.id entry.name entry.kind) ↔
        ¬[' ', 'v'] <:+ name) := by
  have hmark : String.ofList name.dropMarker = String.ofList name ↔ ¬[' ', 'v'] <:+ name :=
    String.ofList_inj.trans Text.dropMarker_eq_self_iff
  obtain ⟨script, b, hresult, hsecond, hopcode, hfield⟩ := second?_resetSource hids hlimit hname hreturn validate
  obtain ⟨script', b', menu, hresult', hsecond', hopcode', hinput⟩ :=
    second?_costumeSource hids hlimit hname hreturn validate
  refine ⟨⟨script, b, hresult, hsecond, hopcode, hfield, ?_⟩,
    script', b', menu, hresult', hsecond', hopcode', hinput, ?_⟩
  · rw [hfield, Option.some_inj, NameTable.variableField_eq_iff hentry, hmark]
  · rw [hinput, Option.some_inj, NameTable.menuInput_eq_iff hentry, hmark]

end

/-- A variable whose name ends in a mark is not set, and a costume of this name is not switched to. -/
theorem loses_name_mark : ∃ setting switching b b' menu,
    (compileSource ⟨⟨⟨[⟨"x v", "id-1", .globalVariable⟩]⟩, Reader.defaultLimit⟩, .default⟩ true
      (resetSource "x v".toList)).result = .ok [setting] ∧ setting.second? = some b ∧
    Keyed.get? Field.slot "VARIABLE" b.fields = some ⟨"VARIABLE", "x", none⟩ ∧
    (compileSource ⟨⟨⟨[⟨"x v", "id-1", .globalVariable⟩]⟩, Reader.defaultLimit⟩, .default⟩ true
      (costumeSource "x v".toList)).result = .ok [switching] ∧ switching.second? = some b' ∧
    Keyed.get? Input.slot "COSTUME" b'.inputs = some (.block "COSTUME" .menu menu) := by
  let o : Options := ⟨⟨⟨[⟨"x v", "id-1", .globalVariable⟩]⟩, Reader.defaultLimit⟩, .default⟩
  have hname : Text.IsEntry "x v".toList := by decide
  have hreturn : '\r' ∉ "x v".toList := by decide
  have hdropped : Text.dropMarker "x v".toList = "x".toList := by decide
  obtain ⟨setting, b, hresult, hsecond, -, hfield⟩ :=
    @second?_resetSource o _ IdSource.default_injective (by decide) hname hreturn true
  obtain ⟨switching, b', menu, hresult', hsecond', -, hinput⟩ :=
    @second?_costumeSource o _ IdSource.default_injective (by decide) hname hreturn true
  rw [hdropped] at hfield hinput
  have hunknown : o.reader.names.lookup (String.ofList "x".toList) = none := by decide
  rw [NameTable.variableField, hunknown] at hfield
  rw [NameTable.menuInput, hunknown] at hinput
  exact ⟨setting, switching, b, b', menu, hresult, hsecond, hfield, hresult', hsecond', hinput⟩

/-- A name that ends in the letter of the mark, and has a mark inside. -/
theorem keeps_name_iff_letter : ∃ script b,
    (compileSource ⟨⟨⟨[⟨"x v vv", "id-1", .globalVariable⟩]⟩, Reader.defaultLimit⟩, .default⟩ true
      (resetSource "x v vv".toList)).result = .ok [script] ∧ script.second? = some b ∧
    Keyed.get? Field.slot "VARIABLE" b.fields = some ⟨"VARIABLE", "x v vv", some "id-1"⟩ := by
  obtain ⟨⟨script, b, hresult, hsecond, -, -, hiff⟩, -⟩ :=
    @keeps_name_iff ⟨⟨⟨[⟨"x v vv", "id-1", .globalVariable⟩]⟩, Reader.defaultLimit⟩, .default⟩ "x v vv".toList
      IdSource.default_injective (by decide) (by decide) (by decide) true
      ⟨"x v vv", "id-1", .globalVariable⟩ (by decide)
  exact ⟨script, b, hresult, hsecond, hiff.2 (by decide)⟩

end BlockScript
