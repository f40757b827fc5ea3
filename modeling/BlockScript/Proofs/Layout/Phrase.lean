import BlockScript.Phrase.Instruction
import BlockScript.Proofs.Layout.Term
import BlockScript.Proofs.Outline.Grammar
import BlockScript.Proofs.Phrase.Operand

/-!
# The phrase of a line

A line that can be read says one operation with its arguments.  The kind of the line decides the shape of the
operation (`Reader.fits_trigger`, `Reader.fits_statement`, `Reader.fits_opener`), and no argument stands in a slot
that a body takes.
-/

namespace BlockScript

/-- An operation with its arguments. -/
structure Phrase where
  op : Operation
  arguments : Arguments

namespace Phrase

/-- The phrase as a term. -/
def term (p : Phrase) : Term :=
  .apply p.op p.arguments

/-- The number of blocks of a phrase. -/
def size (p : Phrase) : Nat :=
  p.arguments.size + 1

theorem size_term (p : Phrase) : p.term.size = p.size :=
  rfl

/-- The phrase is complete, its operation has the given shape, and its arguments can stand in slots. -/
structure Fits (p : Phrase) (shape : Shape) : Prop where
  shape : p.op.shape = shape
  complete : p.term.isComplete = true
  operands : p.arguments.areOperands = true

theorem Fits.arguments_complete {p : Phrase} {shape : Shape} (h : p.Fits shape) :
    p.arguments.isComplete = true := by
  have hc := h.complete
  rw [term, Term.isComplete, Bool.and_eq_true] at hc
  exact hc.1

/-- No argument stands in a slot that a body takes. -/
def LeavesBodies (p : Phrase) : Prop :=
  Script.firstBody ∉ p.arguments.inputNames ∧ Script.secondBody ∉ p.arguments.inputNames

end Phrase

/-- The operation of the containers that lines of a kind open. -/
def LineKind.container : LineKind → Operation
  | repeatTimes => .repeatTimes
  | repeatUntil => .repeatUntil
  | ifThen => .ifThen
  | _ => .forever

namespace Reader

variable (r : Reader)

/-- Whether all that a line says could be read. -/
def isReadable (line : Line) : Bool :=
  match r.instruction line with
  | .trigger hat => hat.isComplete
  | .add term => term.isComplete
  | .enter container => container.isComplete
  | .otherwise => true
  | .close => true
  | .refuse _ => false

/-- The phrase of a line; a line without one gets that of `forever`. -/
def phrase (line : Line) : Phrase :=
  match r.instruction line with
  | .trigger (.apply op arguments) => ⟨op, arguments⟩
  | .add (.apply op arguments) => ⟨op, arguments⟩
  | .enter (.apply op arguments) => ⟨op, arguments⟩
  | _ => ⟨.forever, .done⟩

variable {r} {line : Line}

/-! ### Instructions by kinds -/

theorem instruction_trigger (hk : line.kind = .trigger) :
    r.instruction line = .trigger (r.whole .hat line.text (.unknownTrigger line.text)) := by
  unfold instruction
  rw [hk]

theorem instruction_statement (hk : line.kind = .statement) :
    r.instruction line = .add (r.whole .command line.text (.unrecognizedLine line.text)) := by
  unfold instruction
  rw [hk]

theorem instruction_otherwise (hk : line.kind = .otherwise) : r.instruction line = .otherwise := by
  unfold instruction
  rw [hk]

theorem instruction_close (hk : line.kind = .close) : r.instruction line = .close := by
  unfold instruction
  rw [hk]

theorem instruction_opener (hk : line.kind.opens = true) :
    ∃ values, r.instruction line = .enter (r.termAt 0 line.kind.container values) := by
  unfold instruction LineKind.container
  cases h : line.kind with
  | forever => exact ⟨_, rfl⟩
  | repeatTimes => exact ⟨_, rfl⟩
  | repeatUntil => exact ⟨_, rfl⟩
  | ifThen => exact ⟨_, rfl⟩
  | _ =>
    rw [h] at hk
    cases hk

theorem isReadable_otherwise (r : Reader) (hk : line.kind = .otherwise) : r.isReadable line = true := by
  rw [isReadable, instruction_otherwise hk]

theorem isReadable_close (r : Reader) (hk : line.kind = .close) : r.isReadable line = true := by
  rw [isReadable, instruction_close hk]

/-! ### Phrases by kinds -/

private theorem fits_termAt {op : Operation} {values : Bindings} {depth : Int} {p : Phrase}
    (hp : p = ⟨op, r.argumentsAt depth op values⟩) (h : (r.termAt depth op values).isComplete = true) :
    r.termAt depth op values = p.term ∧ p.Fits op.shape := by
  subst hp
  exact ⟨rfl, rfl, h, r.areOperands_arguments depth op values⟩

private theorem exists_lookup_of_whole {shape : Shape} {t : Text} {fault : Fault}
    (h : (r.whole shape t fault).isComplete = true) : ∃ op values,
      Vocabulary.lookup [shape] t = some (op, values) ∧ r.whole shape t fault = r.termAt 0 op values := by
  unfold whole at h ⊢
  cases hlookup : Vocabulary.lookup [shape] t with
  | none =>
    rw [hlookup] at h
    cases h
  | some found => exact ⟨found.1, found.2, rfl, rfl⟩

private theorem fits_whole {shape : Shape} {t : Text} {fault : Fault} {p : Phrase}
    (hp : ∀ op arguments, r.whole shape t fault = .apply op arguments → p = ⟨op, arguments⟩)
    (h : (r.whole shape t fault).isComplete = true) : r.whole shape t fault = p.term ∧ p.Fits shape := by
  obtain ⟨op, values, hlookup, hwhole⟩ := exists_lookup_of_whole h
  rw [hwhole] at hp h ⊢
  obtain rfl := Vocabulary.shape_of_lookup hlookup
  exact fits_termAt (hp _ _ rfl) h

/-- A `when` line says a hat. -/
theorem fits_trigger (hk : line.kind = .trigger) (h : r.isReadable line = true) :
    r.instruction line = .trigger (r.phrase line).term ∧ (r.phrase line).Fits .hat := by
  have hi := instruction_trigger (r := r) hk
  have hc : (r.whole .hat line.text (.unknownTrigger line.text)).isComplete = true := by
    rwa [isReadable, hi] at h
  obtain ⟨hterm, hfits⟩ := fits_whole (p := r.phrase line)
    (fun op arguments he => by rw [phrase, hi, he]) hc
  exact ⟨by rw [hi, hterm], hfits⟩

/-- A statement says a command. -/
theorem fits_statement (hk : line.kind = .statement) (h : r.isReadable line = true) :
    r.instruction line = .add (r.phrase line).term ∧ (r.phrase line).Fits .command := by
  have hi := instruction_statement (r := r) hk
  have hc : (r.whole .command line.text (.unrecognizedLine line.text)).isComplete = true := by
    rwa [isReadable, hi] at h
  obtain ⟨hterm, hfits⟩ := fits_whole (p := r.phrase line)
    (fun op arguments he => by rw [phrase, hi, he]) hc
  exact ⟨by rw [hi, hterm], hfits⟩

/-- The operation of a `when` line is the hat that reads it. -/
theorem lookup_trigger (hk : line.kind = .trigger) (h : r.isReadable line = true) :
    ∃ values, Vocabulary.lookup [.hat] line.text = some ((r.phrase line).op, values) := by
  have hi := instruction_trigger (r := r) hk
  rw [isReadable, hi] at h
  obtain ⟨op, values, hlookup, hwhole⟩ := exists_lookup_of_whole h
  rw [phrase, hi, hwhole]
  exact ⟨values, hlookup⟩

/-- The operation of a statement is the command that reads it. -/
theorem lookup_statement (hk : line.kind = .statement) (h : r.isReadable line = true) :
    ∃ values, Vocabulary.lookup [.command] line.text = some ((r.phrase line).op, values) := by
  have hi := instruction_statement (r := r) hk
  rw [isReadable, hi] at h
  obtain ⟨op, values, hlookup, hwhole⟩ := exists_lookup_of_whole h
  rw [phrase, hi, hwhole]
  exact ⟨values, hlookup⟩

/-- The phrase of a line that opens a container has the operation of its kind. -/
theorem op_phrase_opener (hk : line.kind.opens = true) : (r.phrase line).op = line.kind.container := by
  obtain ⟨values, hi⟩ := instruction_opener (r := r) hk
  rw [phrase, hi]
  rfl

private theorem inputNames_arguments_sublist (value : SlotKind → Text → Argument) (condition : Text → Term)
    (values : Bindings) (slots : List Slot) :
    (r.arguments value condition values slots).inputNames.Sublist (slots.map Slot.name) := by
  induction slots with
  | nil => exact List.Sublist.refl _
  | cons slot slots ih =>
    unfold arguments
    rw [List.map_cons]
    split
    · exact ih.cons _
    · split_ifs
      · exact ih.cons _
      · exact ih.cons_cons _
      · exact ih.cons_cons _
      · exact ih.cons_cons _

/-- A line that opens a container says it, with both bodies left free. -/
theorem fits_opener (hk : line.kind.opens = true) (h : r.isReadable line = true) :
    r.instruction line = .enter (r.phrase line).term ∧ (r.phrase line).Fits .container ∧
      (r.phrase line).LeavesBodies := by
  obtain ⟨values, hi⟩ := instruction_opener (r := r) hk
  have hp : r.phrase line = ⟨line.kind.container, r.argumentsAt 0 line.kind.container values⟩ := by
    rw [phrase, hi]
    rfl
  have hc : (r.termAt 0 line.kind.container values).isComplete = true := by rwa [isReadable, hi] at h
  obtain ⟨hterm, hfits⟩ := fits_termAt hp hc
  have hshape : line.kind.container.shape = .container := by
    cases line.kind <;> rfl
  have hslots : Script.firstBody ∉ line.kind.container.slots.map Slot.name ∧
      Script.secondBody ∉ line.kind.container.slots.map Slot.name := by
    unfold LineKind.container
    split <;> decide
  have hsub : (r.phrase line).arguments.inputNames.Sublist (line.kind.container.slots.map Slot.name) := by
    rw [hp]
    exact inputNames_arguments_sublist _ _ _ _
  exact ⟨by rw [hi, hterm], hshape ▸ hfits, fun hmem => hslots.1 (hsub.subset hmem),
    fun hmem => hslots.2 (hsub.subset hmem)⟩

end Reader

/-! ### Blocks of operands -/

private theorem grants_isOperand (ids : IdSource) : Term.Grants ids (fun t => t.isOperand = true)
    (fun v => v.isOperand = true) (fun a => a.areOperands = true) (fun _ => True)
    (fun b => b.shape.isOperand = true) where
  apply h := by
    rw [Term.isOperand, Bool.and_eq_true] at h
    exact h.2
  noted h := by rwa [Term.isOperand] at h
  nested h := by rwa [Argument.isOperand] at h
  input h := by rwa [Arguments.areOperands, Bool.and_eq_true] at h
  field h := by rwa [Arguments.areOperands] at h
  operation h _ := by
    rw [Term.isOperand, Bool.and_eq_true] at h
    exact h.1
  shadow _ := rfl

/-- The blocks of operands have shapes of operands. -/
theorem Arguments.isOperand_blocks (ids : IdSource) (n : Nat) (owner : BlockId) (a : Arguments)
    (h : a.areOperands = true) : ∀ b ∈ a.blocks ids n owner, b.shape.isOperand = true :=
  a.forall_blocks (grants_isOperand ids) n owner h fun _ _ => trivial

end BlockScript
