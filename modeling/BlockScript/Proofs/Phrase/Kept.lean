import BlockScript.Phrase.Instruction
import BlockScript.Proofs.Layout.Texts
import BlockScript.Proofs.Text.Wrapping

/-!
# The texts that are kept

Reading a line ends at the texts that are kept as they are: literals, entries of menus, fields and raw inputs.
`Reader.kept` follows the reader and gives these texts as they are written, each with the innermost slot of a pattern
or of a loose form around it.  Whatever is not cut out by a form is cut at the brackets:

* `Reader.balanced_texts_iff`: the texts of a line are balanced exactly if those kept of it are, since neither
  removing brackets, quotes and marks nor renaming an entry makes a difference;
* `Reader.isSound_kept`: a text that is kept of a balanced slot is balanced.
-/

namespace BlockScript

namespace Text

/-! ### Marks and quotes -/

theorem brackets_dropMarker (t : Text) : t.dropMarker.brackets = t.brackets := by
  unfold dropMarker
  split
  · rename_i h
    obtain ⟨s, rfl⟩ := List.isSuffixOf_iff_suffix.1 h
    have htake : (s ++ [' ', 'v']).take ((s ++ [' ', 'v']).length - 2) = s := by simp
    rw [htake, brackets_trimRight, brackets_append]
    exact (List.append_nil _).symm
  · rfl

private theorem brackets_unquotedFrom {quote : Char} (hquote : isBracket quote = false) {t u : Text}
    (h : unquotedFrom? quote t = some u) : brackets (quote :: t) = u.brackets := by
  unfold unquotedFrom? at h
  split at h
  · rename_i hends
    obtain ⟨s, rfl⟩ := List.isSuffixOf_iff_suffix.1 (Bool.and_eq_true_iff.1 hends).1
    rw [List.dropLast_concat] at h
    have hmark : brackets [quote] = [] := by simp [brackets, hquote]
    rw [← Option.some.inj h, brackets, List.filter_cons_of_neg (by simp [hquote])]
    exact (brackets_append s [quote]).trans (by rw [hmark, List.append_nil])
  · cases h

theorem brackets_unquoted {t u : Text} (h : t.unquoted? = some u) : t.brackets = u.brackets := by
  unfold unquoted? at h
  split at h
  · exact brackets_unquotedFrom rfl h
  · exact brackets_unquotedFrom rfl h
  · cases h

theorem balanced_bare_iff (t : Text) : Balanced t.bare ↔ Balanced t :=
  balanced_peel_iff _ t

theorem balanced_bareCondition_iff (t : Text) : Balanced t.bareCondition ↔ Balanced t :=
  balanced_peel_iff _ t

theorem balanced_dropMarker_iff (t : Text) : Balanced t.bare.dropMarker ↔ Balanced t :=
  (balanced_iff_of_brackets (brackets_dropMarker _)).trans (balanced_bare_iff t)

end Text

open Text

theorem Menu.balanced_stored_iff (menu : Menu) (entry : String) :
    Balanced (menu.stored entry).toList ↔ Balanced entry.toList := by
  have hnames : ∀ name ∈ storedNames, brackets name.1.toList = [] ∧ brackets name.2.toList = [] := by decide
  unfold stored
  split_ifs
  · rfl
  · cases hlookup : storedNames.lookup entry with
    | none => rfl
    | some name =>
      obtain ⟨front, behind, hsplit, -⟩ := List.lookup_eq_some_iff.1 hlookup
      obtain ⟨hentry, hname⟩ := hnames (entry, name) (by rw [hsplit]; simp)
      exact iff_of_true (balanced_of_brackets_eq_nil hname) (balanced_of_brackets_eq_nil hentry)

/-! ### What is kept -/

/-- A text that is kept of a source, and the slot of a pattern or a loose form around it, if there is one. -/
structure Kept where
  slot : Option Text
  text : Text

/-- The text is balanced if the slot around it is. -/
def Kept.IsSound (k : Kept) : Prop :=
  (∀ t ∈ k.slot, Balanced t) → Balanced k.text

namespace Reader

/-- What is kept of the texts of some slots, each of which has `around` of its text around it, given what is kept of
values and conditions one level below. -/
def keptArguments (value : SlotKind → Option Text → Text → List Kept) (condition : Option Text → Text → List Kept)
    (around : Text → Option Text) (values : Bindings) : List Slot → List Kept
  | [] => []
  | slot :: rest =>
    match values.lookup slot.name with
    | none => keptArguments value condition around values rest
    | some t =>
      let others := keptArguments value condition around values rest
      if slot.kind.isField then ⟨around t, t⟩ :: others
      else if slot.kind = .boolean then condition (around t) t ++ others
      else if slot.kind = .raw then ⟨around t, t⟩ :: others
      else value slot.kind (around t) t ++ others

/-- What stands around the slots of a text that reads as a reporter.  The sides of arithmetic are not cut out by a
form. -/
def aroundReporter (slot : Option Text) (t : Text) : Text → Option Text :=
  if (Arithmetic.split? t).isSome then fun _ => slot else some

/-- What is kept of the text of a slot, given what is kept of values and conditions one level below. -/
def keptValueStep (r : Reader) (value : SlotKind → Option Text → Text → List Kept)
    (condition : Option Text → Text → List Kept) (kind : SlotKind) (slot : Option Text) (token : Text) : List Kept :=
  match kind with
  | .menu _ =>
    match r.names.lookup (String.ofList token.bare.dropMarker) with
    | some _ => []
    | none => [⟨slot, token⟩]
  | _ =>
    let text := token.bare
    match r.names.lookup (String.ofList text) with
    | some _ => []
    | none =>
      if text.isWrapped [.angle] then condition slot text
      else match text.unquoted? with
        | some _ => [⟨slot, token⟩]
        | none =>
          match reporter? text with
          | some (op, values) => keptArguments value condition (aroundReporter slot text) values op.slots
          | none => [⟨slot, token⟩]

/-- What is kept of a condition, given what is kept of values and conditions one level below. -/
def keptConditionStep (value : SlotKind → Option Text → Text → List Kept)
    (condition : Option Text → Text → List Kept) (slot : Option Text) (token : Text) : List Kept :=
  let t := token.bareCondition
  if t = [] then []
  else match splitAtFirst? connectives t with
    | some (_, left, right) => condition slot left ++ condition slot right
    | none =>
      match splitAtFirst? comparisons t with
      | some (_, left, right) => value (operandKind left) slot left ++ value (operandKind right) slot right
      | none =>
        match predicate? t with
        | some (op, values) => keptArguments value condition some values op.slots
        | none => []

mutual

/-- What is kept of the text of a slot, when the given number of levels is left. -/
def keptValue (r : Reader) : (levels : Nat) → SlotKind → Option Text → Text → List Kept
  | 0, _, _, _ => []
  | levels + 1, kind, slot, token =>
    r.keptValueStep (keptValue r levels) (keptCondition r levels) kind slot token

/-- What is kept of a condition, when the given number of levels is left. -/
def keptCondition (r : Reader) : (levels : Nat) → Option Text → Text → List Kept
  | 0, _, _ => []
  | levels + 1, slot, token => keptConditionStep (keptValue r levels) (keptCondition r levels) slot token

end

/-- What is kept of the slots of an operation that begins a phrase. -/
def keptPhrase (r : Reader) (around : Text → Option Text) (op : Operation) (values : Bindings) : List Kept :=
  keptArguments (r.keptValue (r.levelsAt 1)) (r.keptCondition (r.levelsAt 1)) around values op.slots

/-- What is kept of a text that reads as an operation of the given shape. -/
def keptWhole (r : Reader) (shape : Shape) (t : Text) : List Kept :=
  match Vocabulary.lookup [shape] t with
  | some (op, values) => r.keptPhrase some op values
  | none => []

/-- What is kept of a line that opens a container; its argument is not cut out by a form. -/
def keptContainer (r : Reader) (op : Operation) (slot : String) (line : Line) : List Kept :=
  r.keptPhrase (fun _ => none) op [(slot, line.argument.getD [])]

/-- What is kept of a line. -/
def kept (r : Reader) (line : Line) : List Kept :=
  match line.kind with
  | .trigger => r.keptWhole .hat line.text
  | .statement => r.keptWhole .command line.text
  | .repeatTimes => r.keptContainer .repeatTimes "TIMES" line
  | .repeatUntil => r.keptContainer .repeatUntil "CONDITION" line
  | .ifThen => r.keptContainer .ifThen "CONDITION" line
  | _ => []

/-! ### Kept texts and stored texts -/

variable (r : Reader)

theorem text_fieldValue (kind : SlotKind) (t : Text) :
    (r.fieldValue kind t).text = String.ofList t.bare.dropMarker := by
  unfold fieldValue
  dsimp only
  split_ifs
  · cases hlookup : r.names.lookup (String.ofList t.bare.dropMarker) with
    | none => rfl
    | some entry => exact NameTable.name_of_lookup hlookup
  · rfl

section Steps

variable {value : SlotKind → Text → Argument} {condition : Text → Term}
  {valueKept : SlotKind → Option Text → Text → List Kept} {conditionKept : Option Text → Text → List Kept}
  (hvalue : ∀ kind slot t, (∀ w ∈ (value kind t).texts, Balanced w.toList) ↔
    ∀ k ∈ valueKept kind slot t, Balanced k.text)
  (hcondition : ∀ slot t, (∀ w ∈ (condition t).texts, Balanced w.toList) ↔
    ∀ k ∈ conditionKept slot t, Balanced k.text)

include hvalue hcondition

theorem balanced_arguments_iff (around : Text → Option Text) (values : Bindings) (slots : List Slot) :
    (∀ w ∈ (r.arguments value condition values slots).texts, Balanced w.toList) ↔
      ∀ k ∈ keptArguments valueKept conditionKept around values slots, Balanced k.text := by
  induction slots with
  | nil => simp [arguments, keptArguments, Arguments.texts]
  | cons slot slots ih =>
    unfold arguments keptArguments
    cases values.lookup slot.name with
    | none => exact ih
    | some t =>
      dsimp only
      split_ifs
      · rw [Arguments.texts, List.forall_mem_cons, List.forall_mem_cons, ih, text_fieldValue, String.toList_ofList,
          balanced_dropMarker_iff]
      · rw [Arguments.texts, List.forall_mem_append, List.forall_mem_append, ih, ← hcondition, Argument.texts]
      · rw [Arguments.texts, List.forall_mem_append, List.forall_mem_cons, ih, Argument.texts,
          List.forall_mem_singleton, String.toList_ofList, balanced_bare_iff]
      · rw [Arguments.texts, List.forall_mem_append, List.forall_mem_append, ih, ← hvalue]

theorem balanced_valueStep_iff (kind : SlotKind) (slot : Option Text) (token : Text) :
    (∀ w ∈ (r.valueStep value condition kind token).texts, Balanced w.toList) ↔
      ∀ k ∈ r.keptValueStep valueKept conditionKept kind slot token, Balanced k.text := by
  unfold valueStep
  split
  · rename_i menu
    unfold keptValueStep
    dsimp only
    cases r.names.lookup (String.ofList token.bare.dropMarker) with
    | some entry => simp [Argument.texts]
    | none =>
      dsimp only
      rw [Argument.texts, List.forall_mem_singleton, List.forall_mem_singleton, Menu.balanced_stored_iff,
        String.toList_ofList, balanced_dropMarker_iff]
  · unfold keptValueStep
    split
    · rename_i menu hmenu
      exact absurd rfl (hmenu menu)
    · dsimp only
      cases r.names.lookup (String.ofList token.bare) with
      | some entry => simp [Argument.texts]
      | none =>
        dsimp only
        split_ifs
        · rw [Argument.texts]
          exact hcondition slot token.bare
        · cases hquoted : token.bare.unquoted? with
          | some quoted =>
            dsimp only
            rw [Argument.texts, List.forall_mem_singleton, List.forall_mem_singleton, String.toList_ofList,
              ← balanced_iff_of_brackets (brackets_unquoted hquoted), balanced_bare_iff]
          | none =>
            dsimp only
            unfold reporterTerm?
            cases reporter? token.bare with
            | some found =>
              obtain ⟨op, values⟩ := found
              dsimp only [Option.map_some]
              rw [Argument.texts, applied, Term.texts]
              exact r.balanced_arguments_iff hvalue hcondition _ values op.slots
            | none =>
              dsimp only [Option.map_none]
              rw [Argument.texts, List.forall_mem_singleton, List.forall_mem_singleton, String.toList_ofList,
                balanced_bare_iff]

theorem balanced_conditionStep_iff (slot : Option Text) (token : Text) :
    (∀ w ∈ (r.conditionStep value condition token).texts, Balanced w.toList) ↔
      ∀ k ∈ keptConditionStep valueKept conditionKept slot token, Balanced k.text := by
  unfold conditionStep keptConditionStep
  dsimp only
  split_ifs
  · simp [Term.texts]
  · cases splitAtFirst? connectives token.bareCondition with
    | some found =>
      obtain ⟨op, left, right⟩ := found
      dsimp only
      rw [List.forall_mem_append, ← hcondition, ← hcondition]
      simp only [Term.texts, Arguments.texts, Argument.texts, List.append_nil, List.forall_mem_append]
    | none =>
      dsimp only
      cases splitAtFirst? comparisons token.bareCondition with
      | some found =>
        obtain ⟨op, left, right⟩ := found
        dsimp only
        rw [List.forall_mem_append, ← hvalue, ← hvalue]
        simp only [Term.texts, Arguments.texts, List.append_nil, List.forall_mem_append]
      | none =>
        dsimp only
        cases predicate? token.bareCondition with
        | some found =>
          obtain ⟨op, values⟩ := found
          dsimp only
          rw [Term.texts, applied, Term.texts]
          exact r.balanced_arguments_iff hvalue hcondition some values op.slots
        | none => simp [Term.texts]

end Steps

mutual

theorem balanced_value_iff : (levels : Nat) → (kind : SlotKind) → (slot : Option Text) → (t : Text) →
    ((∀ w ∈ (r.value levels kind t).texts, Balanced w.toList) ↔
      ∀ k ∈ r.keptValue levels kind slot t, Balanced k.text)
  | 0, _, _, _ => by simp [value, keptValue, Argument.texts]
  | levels + 1, kind, slot, t => by
    rw [value, keptValue]
    exact r.balanced_valueStep_iff (balanced_value_iff levels) (balanced_condition_iff levels) kind slot t

theorem balanced_condition_iff : (levels : Nat) → (slot : Option Text) → (t : Text) →
    ((∀ w ∈ (r.condition levels t).texts, Balanced w.toList) ↔
      ∀ k ∈ r.keptCondition levels slot t, Balanced k.text)
  | 0, _, _ => by simp [condition, keptCondition, Term.texts]
  | levels + 1, slot, t => by
    rw [condition, keptCondition]
    exact r.balanced_conditionStep_iff (balanced_value_iff levels) (balanced_condition_iff levels) slot t

end

/-! ### Cuts at brackets -/

/-- A slot is sound in itself. -/
private theorem isSound_self (t : Text) : Kept.IsSound ⟨some t, t⟩ :=
  fun h => h t rfl

private theorem isSound_congr {slot : Option Text} {t u : Text} (h : Balanced u ↔ Balanced t) :
    Kept.IsSound ⟨slot, u⟩ ↔ Kept.IsSound ⟨slot, t⟩ :=
  imp_congr_right fun _ => h

private theorem isSound_sides {slot : Option Text} {t left right : Text} (hcut : CutAt t left right)
    (h : Kept.IsSound ⟨slot, t⟩) : Kept.IsSound ⟨slot, left⟩ ∧ Kept.IsSound ⟨slot, right⟩ :=
  ⟨fun hslot => (hcut.balanced (h hslot)).1, fun hslot => (hcut.balanced (h hslot)).2⟩

theorem mem_of_lookup {values : Bindings} {name : String} {t : Text} (h : values.lookup name = some t) :
    (name, t) ∈ values := by
  obtain ⟨front, behind, rfl, -⟩ := List.lookup_eq_some_iff.1 h
  simp

theorem cutAt_of_splitAtFirst {words : List (Text × Operation)} (hwords : ∀ w ∈ words, w.1.brackets = [])
    {t left right : Text} {op : Operation} (h : splitAtFirst? words t = some (op, left, right)) :
    CutAt t left right := by
  obtain ⟨word, hw, hsides⟩ := exists_word_of_splitAtFirst h
  exact cutAt_of_splitAtWord (hwords (word, op) hw) hsides

/-- The texts of the slots of a reporter are sound: slots of a form are their own surroundings, and arithmetic is cut
at the brackets. -/
private theorem isSound_around {slot : Option Text} {t : Text} {op : Operation} {values : Bindings}
    (h : Kept.IsSound ⟨slot, t⟩) (hfound : reporter? t = some (op, values)) (name : String) (u : Text)
    (hu : values.lookup name = some u) : Kept.IsSound ⟨aroundReporter slot t u, u⟩ := by
  unfold aroundReporter
  unfold reporter? at hfound
  cases hcut : Arithmetic.split? t with
  | none => exact isSound_self u
  | some cut =>
    rw [hcut] at hfound
    obtain ⟨-, rfl⟩ := Prod.mk.inj (Option.some.inj hfound)
    obtain ⟨hleft, hright⟩ := isSound_sides (Arithmetic.cutAt_of_split hcut) h
    -- the two sides of the cut are the only values
    rcases List.mem_cons.1 (mem_of_lookup hu) with he | he
    · obtain ⟨-, rfl⟩ := Prod.mk.inj he
      exact hleft
    · obtain ⟨-, rfl⟩ := Prod.mk.inj (List.mem_singleton.1 he)
      exact hright

section Sound

variable {valueKept : SlotKind → Option Text → Text → List Kept} {conditionKept : Option Text → Text → List Kept}
  (hvalue : ∀ kind slot t, Kept.IsSound ⟨slot, t⟩ → ∀ k ∈ valueKept kind slot t, k.IsSound)
  (hcondition : ∀ slot t, Kept.IsSound ⟨slot, t⟩ → ∀ k ∈ conditionKept slot t, k.IsSound)

include hvalue hcondition

theorem isSound_arguments {around : Text → Option Text} {values : Bindings}
    (h : ∀ name t, values.lookup name = some t → Kept.IsSound ⟨around t, t⟩) (slots : List Slot) :
    ∀ k ∈ keptArguments valueKept conditionKept around values slots, k.IsSound := by
  induction slots with
  | nil => simp [keptArguments]
  | cons slot slots ih =>
    unfold keptArguments
    cases hlookup : values.lookup slot.name with
    | none => exact ih
    | some t =>
      have ht := h _ _ hlookup
      dsimp only
      split_ifs
      · exact List.forall_mem_cons.2 ⟨ht, ih⟩
      · exact List.forall_mem_append.2 ⟨hcondition _ _ ht, ih⟩
      · exact List.forall_mem_cons.2 ⟨ht, ih⟩
      · exact List.forall_mem_append.2 ⟨hvalue _ _ _ ht, ih⟩

theorem isSound_valueStep (kind : SlotKind) {slot : Option Text} {token : Text} (h : Kept.IsSound ⟨slot, token⟩) :
    ∀ k ∈ r.keptValueStep valueKept conditionKept kind slot token, k.IsSound := by
  have hbare : Kept.IsSound ⟨slot, token.bare⟩ := (isSound_congr (balanced_bare_iff token)).2 h
  unfold keptValueStep
  split
  · split
    · simp
    · exact List.forall_mem_singleton.2 h
  · dsimp only
    split
    · simp
    · split_ifs
      · exact hcondition slot token.bare hbare
      · split
        · exact List.forall_mem_singleton.2 h
        · split
          · rename_i op values hfound
            exact isSound_arguments hvalue hcondition (isSound_around hbare hfound) op.slots
          · exact List.forall_mem_singleton.2 h

theorem isSound_conditionStep {slot : Option Text} {token : Text} (h : Kept.IsSound ⟨slot, token⟩) :
    ∀ k ∈ keptConditionStep valueKept conditionKept slot token, k.IsSound := by
  have hconnectives : ∀ w ∈ connectives, w.1.brackets = [] := by decide
  have hcomparisons : ∀ w ∈ comparisons, w.1.brackets = [] := by decide
  have hbare : Kept.IsSound ⟨slot, token.bareCondition⟩ := (isSound_congr (balanced_bareCondition_iff token)).2 h
  unfold keptConditionStep
  dsimp only
  split_ifs
  · simp
  · split
    · rename_i op left right hsplit
      obtain ⟨hleft, hright⟩ := isSound_sides (cutAt_of_splitAtFirst hconnectives hsplit) hbare
      exact List.forall_mem_append.2 ⟨hcondition _ _ hleft, hcondition _ _ hright⟩
    · split
      · rename_i op left right hsplit
        obtain ⟨hleft, hright⟩ := isSound_sides (cutAt_of_splitAtFirst hcomparisons hsplit) hbare
        exact List.forall_mem_append.2 ⟨hvalue _ _ _ hleft, hvalue _ _ _ hright⟩
      · split
        · rename_i op values _
          exact isSound_arguments hvalue hcondition (fun _ t _ => isSound_self t) op.slots
        · simp

end Sound

mutual

theorem isSound_value : (levels : Nat) → (kind : SlotKind) → (slot : Option Text) → (t : Text) →
    Kept.IsSound ⟨slot, t⟩ → ∀ k ∈ r.keptValue levels kind slot t, k.IsSound
  | 0, _, _, _, _ => by simp [keptValue]
  | levels + 1, kind, slot, t, h => by
    rw [keptValue]
    exact r.isSound_valueStep (isSound_value levels) (isSound_condition levels) kind h

theorem isSound_condition : (levels : Nat) → (slot : Option Text) → (t : Text) →
    Kept.IsSound ⟨slot, t⟩ → ∀ k ∈ r.keptCondition levels slot t, k.IsSound
  | 0, _, _, _ => by simp [keptCondition]
  | levels + 1, slot, t, h => by
    rw [keptCondition]
    exact isSound_conditionStep (isSound_value levels) (isSound_condition levels) h

end

/-! ### Lines -/

theorem balanced_argumentsAt_iff (around : Text → Option Text) (op : Operation) (values : Bindings) :
    (∀ w ∈ (r.argumentsAt 0 op values).texts, Balanced w.toList) ↔
      ∀ k ∈ r.keptPhrase around op values, Balanced k.text :=
  r.balanced_arguments_iff (r.balanced_value_iff _) (r.balanced_condition_iff _) around values op.slots

theorem isSound_keptPhrase {around : Text → Option Text} {values : Bindings}
    (h : ∀ name t, values.lookup name = some t → Kept.IsSound ⟨around t, t⟩) (op : Operation) :
    ∀ k ∈ r.keptPhrase around op values, k.IsSound :=
  isSound_arguments (r.isSound_value _) (r.isSound_condition _) h op.slots

private theorem balanced_whole_iff (shape : Shape) (t : Text) (fault : Fault) :
    (∀ w ∈ (r.whole shape t fault).texts, Balanced w.toList) ↔ ∀ k ∈ r.keptWhole shape t, Balanced k.text := by
  unfold whole keptWhole
  cases Vocabulary.lookup [shape] t with
  | none => simp [Term.texts]
  | some found => exact r.balanced_argumentsAt_iff some found.1 found.2

/-- The texts of a line are balanced exactly if those kept of it are. -/
theorem balanced_texts_iff (line : Line) :
    (∀ w ∈ r.texts line, Balanced w.toList) ↔ ∀ k ∈ r.kept line, Balanced k.text := by
  -- hats and commands are read as a whole, containers by their argument, and nothing is kept of the rest
  have hcontainer {op : Operation} {slot : String} (hi : r.instruction line = .enter (r.container op slot line)) :
      (∀ w ∈ r.texts line, Balanced w.toList) ↔ ∀ k ∈ r.keptContainer op slot line, Balanced k.text := by
    rw [texts, phrase, hi]
    exact r.balanced_argumentsAt_iff (fun _ => none) op [(slot, line.argument.getD [])]
  have hnone (h : r.texts line = []) : (∀ w ∈ r.texts line, Balanced w.toList) ↔ ∀ k ∈ [], Balanced (Kept.text k) := by
    simp [h]
  unfold kept
  cases hk : line.kind with
  | trigger =>
    have htexts : r.texts line = (r.whole .hat line.text (.unknownTrigger line.text)).texts := by
      rw [texts, phrase, instruction_trigger hk, whole]
      cases Vocabulary.lookup [.hat] line.text <;> rfl
    rw [htexts]
    exact r.balanced_whole_iff _ _ _
  | statement =>
    have htexts : r.texts line = (r.whole .command line.text (.unrecognizedLine line.text)).texts := by
      rw [texts, phrase, instruction_statement hk, whole]
      cases Vocabulary.lookup [.command] line.text <;> rfl
    rw [htexts]
    exact r.balanced_whole_iff _ _ _
  | repeatTimes => exact hcontainer (by rw [instruction, hk])
  | repeatUntil => exact hcontainer (by rw [instruction, hk])
  | ifThen => exact hcontainer (by rw [instruction, hk])
  | _ =>
    refine hnone ?_
    rw [texts, phrase, instruction, hk]
    rfl

/-- What is kept of a line whose argument is balanced is sound. -/
theorem isSound_kept {line : Line} (h : ∀ t ∈ line.argument, Balanced t) : ∀ k ∈ r.kept line, k.IsSound := by
  have hcontainer (op : Operation) (slot : String) : ∀ k ∈ r.keptContainer op slot line, k.IsSound := by
    refine r.isSound_keptPhrase (fun name t ht _ => ?_) op
    obtain ⟨-, rfl⟩ := Prod.mk.inj (List.mem_singleton.1 (mem_of_lookup ht))
    cases hargument : line.argument with
    | none => rfl
    | some argument => exact h argument hargument
  have hwhole (shape : Shape) : ∀ k ∈ r.keptWhole shape line.text, k.IsSound := by
    unfold keptWhole
    split
    · rename_i op values _
      exact r.isSound_keptPhrase (fun _ t _ => isSound_self t) op
    · simp
  unfold kept
  split
  · exact hwhole _
  · exact hwhole _
  · exact hcontainer _ _
  · exact hcontainer _ _
  · exact hcontainer _ _
  · simp

end Reader

end BlockScript
