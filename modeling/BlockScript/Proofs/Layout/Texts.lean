import BlockScript.Proofs.Layout.Draft

/-!
# The texts of a script

A script keeps the texts of its source in raw inputs and in the fields of its blocks and shadows; the name of a
reference is none of them.  `Term.texts` gives the texts of a term, and the texts of a script are those of the phrases
of its lines (`Outline.mem_texts_script`).
-/

namespace BlockScript

/-- The text of an input that is kept as it is written. -/
def Input.raw? : Input → Option String
  | raw _ value => some value
  | _ => none

/-- The texts of a block. -/
def Block.texts (b : Block) : List String :=
  b.inputs.filterMap Input.raw? ++ b.fields.map Field.value

/-- The texts of a script. -/
def Script.texts (s : Script) : List String :=
  s.blocks.blocks.flatMap Block.texts

/-- The text of a field. -/
def FieldValue.text : FieldValue → String
  | .plain value => value
  | .variableName _ (some entry) => entry.name
  | .variableName name none => String.ofList name

mutual

/-- The texts of a term. -/
def Term.texts : Term → List String
  | .apply _ arguments => arguments.texts
  | .noted _ term => term.texts
  | .unreadable _ => []

/-- The texts of an argument. -/
def Argument.texts : Argument → List String
  | .reference _ => []
  | .shadow _ value => [value]
  | .nested _ term => term.texts
  | .raw value => [value]
  | .unreadable _ => []

/-- The texts of some arguments. -/
def Arguments.texts : Arguments → List String
  | .done => []
  | .input _ value rest => value.texts ++ rest.texts
  | .field _ value rest => value.text :: rest.texts

end

theorem FieldValue.value_inSlot (slot : String) (value : FieldValue) : (value.inSlot slot).value = value.text :=
  match value with
  | .plain _ => rfl
  | .variableName _ (some _) => rfl
  | .variableName _ none => rfl

/-! ### Terms -/

variable {ids : IdSource} {w : String}

mutual

theorem Term.mem_texts (n : Nat) (owner : Option BlockId) :
    (t : Term) → (w ∈ (t.blocks ids n owner).flatMap Block.texts ↔ w ∈ t.texts)
  | .apply op arguments => by
    rw [Term.blocks, Term.texts, ← arguments.mem_texts (n + 1) (ids n), List.flatMap_append, List.mem_append,
      List.flatMap_singleton]
    exact Iff.rfl
  | .noted _ term => by
    rw [Term.blocks, Term.texts]
    exact term.mem_texts n owner
  | .unreadable _ => Iff.rfl

theorem Argument.mem_texts (n : Nat) (owner : BlockId) (slot : String) : (v : Argument) →
    (w ∈ (v.blocks ids n owner).flatMap Block.texts ∨ w ∈ (v.input? ids n slot).toList.filterMap Input.raw? ↔
      w ∈ v.texts)
  | .reference _ => by simp [Argument.blocks, Argument.input?, Argument.texts, Input.raw?]
  | .shadow shadow value => by
    simp [Argument.blocks, Argument.input?, Argument.texts, Input.raw?, Block.texts, Build.shadowBlock]
  | .nested _ term => by
    rw [Argument.blocks, Argument.texts, term.mem_texts n (some owner)]
    simp [Argument.input?, Input.raw?]
  | .raw _ => by simp [Argument.blocks, Argument.input?, Argument.texts, Input.raw?]
  | .unreadable _ => by simp [Argument.blocks, Argument.input?, Argument.texts]

theorem Arguments.mem_texts (n : Nat) (owner : BlockId) : (a : Arguments) →
    (w ∈ (a.blocks ids n owner).flatMap Block.texts ∨
      w ∈ (a.inputs ids n).filterMap Input.raw? ++ a.fields.map Field.value ↔ w ∈ a.texts)
  | .done => by simp [Arguments.blocks, Arguments.inputs, Arguments.fields, Arguments.texts]
  | .input slot value rest => by
    have hvalue := value.mem_texts n owner slot
    have hrest := rest.mem_texts (n + value.size) owner
    rw [Arguments.texts, Arguments.blocks, Arguments.inputs, Arguments.fields, List.flatMap_append,
      List.filterMap_append]
    rw [List.append_assoc, List.mem_append, List.mem_append, or_or_or_comm, hvalue, hrest, List.mem_append]
  | .field slot value rest => by
    have hrest := rest.mem_texts n owner
    rw [Arguments.texts, Arguments.blocks, Arguments.inputs, Arguments.fields, List.map_cons, value.value_inSlot]
    rw [List.mem_cons, ← hrest, List.mem_append, List.mem_append, List.mem_cons, or_left_comm (b := w = _)]
    exact or_left_comm

end

/-! ### Lines -/

variable {r : Reader}

/-- The texts of what a line says. -/
def Reader.texts (r : Reader) (line : Line) : List String :=
  (r.phrase line).arguments.texts

theorem Reader.texts_otherwise {line : Line} (hk : line.kind = .otherwise) : r.texts line = [] := by
  rw [texts, phrase, instruction_otherwise hk]
  rfl

theorem Reader.texts_close {line : Line} (hk : line.kind = .close) : r.texts line = [] := by
  rw [texts, phrase, instruction_close hk]
  rfl

namespace Item

private theorem raw_bodyInputs (n : Nat) (item : Item) : (item.bodyInputs r ids n).filterMap Input.raw? = [] := by
  rw [List.filterMap_eq_nil_iff]
  intro input hinput
  cases item with
  | statement => cases hinput
  | enclosed =>
    obtain ⟨first, -, rfl⟩ := List.mem_map.1 hinput
    rfl
  | forked =>
    rcases List.mem_append.1 hinput with hinput | hinput <;>
    · obtain ⟨first, -, rfl⟩ := List.mem_map.1 hinput
      rfl

private theorem mem_texts_of_inside {item : Item} (h : ∀ line ∈ item.lines, r.isReadable line = true) (n : Nat)
    (parent next : Option BlockId) : w ∈ (item.blocks r ids n parent next).flatMap Block.texts ↔
      w ∈ r.texts item.opener ∨ w ∈ (item.inside r ids n).flatMap Block.texts := by
  have htexts : ((item.block r ids n).placed parent next).texts = ((r.phrase item.opener).block ids n).texts := by
    show (item.block r ids n).inputs.filterMap Input.raw? ++ (item.block r ids n).fields.map Field.value = _
    rw [inputs_block h, fields_block, List.filterMap_append, raw_bodyInputs, List.append_nil]
    rfl
  have harguments := @Arguments.mem_texts ids w (n + 1) (ids n) (r.phrase item.opener).arguments
  rw [blocks, List.flatMap_append, List.flatMap_cons, htexts, Reader.texts, ← harguments, List.mem_append,
    List.mem_append, ← or_assoc]
  exact Iff.rfl

mutual

theorem mem_texts (n : Nat) (parent next : Option BlockId) : (item : Item) →
    (∀ line ∈ item.lines, r.isReadable line = true) →
      (w ∈ (item.blocks r ids n parent next).flatMap Block.texts ↔ ∃ line ∈ item.lines, w ∈ r.texts line)
  | .statement line isStatement, h => by
    rw [mem_texts_of_inside h, inside]
    simp [opener, lines]
  | .enclosed opener opens body closer closes, h => by
    have hbody := mem_texts_chained (n + (r.phrase opener).size) (some (ids n)) body (forall_of_enclosed h)
    rw [mem_texts_of_inside h, inside, hbody]
    simp [lines, Item.opener, Reader.texts_close closes, or_and_right, exists_or]
  | .forked opener isIf body middle isElse alternative closer closes, h => by
    obtain ⟨hbody, halternative⟩ := forall_of_forked h
    replace hbody := mem_texts_chained (n + (r.phrase opener).size) (some (ids n)) body hbody
    replace halternative :=
      mem_texts_chained (n + (r.phrase opener).size + sizes r body) (some (ids n)) alternative halternative
    rw [mem_texts_of_inside h, inside, List.flatMap_append, List.mem_append, hbody, halternative]
    simp [lines, Item.opener, Reader.texts_close closes, Reader.texts_otherwise isElse, or_and_right, exists_or]

theorem mem_texts_chained (n : Nat) (parent : Option BlockId) : (items : List Item) →
    (∀ line ∈ allLines items, r.isReadable line = true) →
      (w ∈ (chained r ids n parent items).flatMap Block.texts ↔ ∃ line ∈ allLines items, w ∈ r.texts line)
  | [], _ => by simp [chained, allLines]
  | item :: rest, h => by
    obtain ⟨hitem, hrest⟩ := forall_allLines_cons.1 h
    replace hitem := item.mem_texts n parent (first? ids (n + item.size r) rest) hitem
    replace hrest := mem_texts_chained (n + item.size r) (some (ids n)) rest hrest
    rw [chained_cons, List.flatMap_append, List.mem_append, hitem, hrest, allLines]
    simp only [List.mem_append, or_and_right, exists_or]

end

end Item

namespace Outline

/-- The texts of a script are those of its lines. -/
theorem mem_texts_script {o : Outline} (h : ∀ line ∈ o.lines, r.isReadable line = true) (n : Nat) :
    w ∈ (o.script r ids n).texts ↔ ∃ line ∈ o.lines, w ∈ r.texts line := by
  have hitems := @Item.mem_texts_chained ids w r (n + (r.phrase o.hat).size) (some (ids n)) o.items (forall_lines.1 h).2
  have harguments := @Arguments.mem_texts ids w (n + 1) (ids n) (r.phrase o.hat).arguments
  rw [Script.texts, script, Arena.blocks_ofBlocks, blocks, List.flatMap_append, List.flatMap_cons, List.mem_append,
    List.mem_append, hitems, ← or_assoc]
  simp only [lines, List.mem_cons, or_and_right, exists_or, exists_eq_left]
  rw [Reader.texts, ← harguments]
  exact Iff.rfl

theorem mem_texts_scripts {outlines : List Outline} (h : ∀ line ∈ allLines outlines, r.isReadable line = true)
    (n : Nat) : w ∈ (scripts r ids n outlines).flatMap Script.texts ↔
      ∃ line ∈ allLines outlines, w ∈ r.texts line := by
  induction outlines generalizing n with
  | nil => simp [scripts, allLines]
  | cons o outlines ih =>
    obtain ⟨ho, houtlines⟩ := forall_allLines_cons.1 h
    rw [scripts, List.flatMap_cons, List.mem_append, mem_texts_script ho n, ih houtlines]
    simp only [allLines, List.flatMap_cons, List.mem_append, or_and_right, exists_or]

end Outline

end BlockScript
