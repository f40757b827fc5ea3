import BlockScript.Proofs.Phrase.Operand

/-!
# The layers of a phrase

The blocks of a phrase lie in layers: those that its arguments hold, those that these hold, and so on.  Reading goes one
level down with each layer, whichever way leads there, so that a value or a condition has no more layers than levels
were left for it (`Reader.layers_value_le`, `Reader.layers_condition_le`).
-/

namespace BlockScript

mutual

/-- The number of layers of blocks of a term, its own block included. -/
def Term.layers : Term → Nat
  | .apply _ arguments => arguments.layers + 1
  | .noted _ term => term.layers
  | .unreadable _ => 0

/-- The number of layers of blocks of an argument. -/
def Argument.layers : Argument → Nat
  | .reference _ => 0
  | .shadow _ _ => 1
  | .nested _ term => term.layers
  | .raw _ => 0
  | .unreadable _ => 0

/-- The number of layers of blocks of the deepest of some arguments. -/
def Arguments.layers : Arguments → Nat
  | .done => 0
  | .input _ value rest => max value.layers rest.layers
  | .field _ _ rest => rest.layers

end

namespace Reader

variable (r : Reader) {value : SlotKind → Text → Argument} {condition : Text → Term} {levels : Nat}

/-! ### One level -/

section Steps

variable (hvalue : ∀ kind t, (value kind t).layers ≤ levels) (hcondition : ∀ t, (condition t).layers ≤ levels)

include hvalue hcondition

private theorem layers_arguments_le (values : Bindings) (slots : List Slot) :
    (r.arguments value condition values slots).layers ≤ levels := by
  induction slots with
  | nil => exact Nat.zero_le levels
  | cons slot slots ih =>
    unfold arguments
    split
    · exact ih
    · rename_i t _
      dsimp only
      split_ifs
      · exact ih
      · exact Nat.max_le.2 ⟨hcondition t, ih⟩
      · exact Nat.max_le.2 ⟨Nat.zero_le levels, ih⟩
      · exact Nat.max_le.2 ⟨hvalue slot.kind t, ih⟩

/-- An operation lies one layer above its arguments. -/
private theorem layers_applied_le (op : Operation) (values : Bindings) :
    (r.applied value condition op values).layers ≤ levels + 1 :=
  Nat.succ_le_succ (r.layers_arguments_le hvalue hcondition values op.slots)

private theorem layers_valueStep_le (kind : SlotKind) (token : Text) :
    (r.valueStep value condition kind token).layers ≤ levels + 1 := by
  have hshadow : 1 ≤ levels + 1 := Nat.succ_le_succ (Nat.zero_le levels)
  unfold valueStep
  -- a menu is a name or a shadow; only a literal goes on to another level
  split
  · dsimp only
    split
    · exact Nat.zero_le _
    · exact hshadow
  · dsimp only
    split
    · exact Nat.zero_le _
    · split_ifs
      · exact Nat.le_succ_of_le (hcondition _)
      · split
        · exact hshadow
        · split
          · rename_i term hterm
            obtain ⟨⟨op, values⟩, -, rfl⟩ := Option.map_eq_some_iff.1 hterm
            exact r.layers_applied_le hvalue hcondition op values
          · exact hshadow

private theorem layers_conditionStep_le (token : Text) :
    (r.conditionStep value condition token).layers ≤ levels + 1 := by
  unfold conditionStep
  dsimp only
  split_ifs
  · exact Nat.zero_le _
  · split
    · rename_i op left right _
      exact Nat.succ_le_succ (Nat.max_le.2 ⟨hcondition left, Nat.max_le.2 ⟨hcondition right, Nat.zero_le levels⟩⟩)
    · split
      · rename_i op left right _
        exact Nat.succ_le_succ (Nat.max_le.2 ⟨hvalue _ left, Nat.max_le.2 ⟨hvalue _ right, Nat.zero_le levels⟩⟩)
      · split
        · rename_i op values _
          exact r.layers_applied_le hvalue hcondition op values
        · exact Nat.zero_le _

end Steps

/-! ### All levels -/

mutual

/-- A value has no more layers than there are levels for it. -/
theorem layers_value_le : (levels : Nat) → (kind : SlotKind) → (t : Text) → (r.value levels kind t).layers ≤ levels
  | 0, _, _ => Nat.le_refl 0
  | levels + 1, kind, t => r.layers_valueStep_le (layers_value_le levels) (layers_condition_le levels) kind t

/-- A condition has no more layers than there are levels for it. -/
theorem layers_condition_le : (levels : Nat) → (t : Text) → (r.condition levels t).layers ≤ levels
  | 0, _ => Nat.le_refl 0
  | levels + 1, t => r.layers_conditionStep_le (layers_value_le levels) (layers_condition_le levels) t

end

/-- The arguments of a line have no more layers than the limit on nesting allows. -/
theorem layers_argumentsAt_le (op : Operation) (values : Bindings) :
    (r.argumentsAt 0 op values).layers ≤ r.limit.toNat := by
  have hlevels : r.levelsAt (0 + 1) = r.limit.toNat := by
    rw [levelsAt]
    omega
  rw [← hlevels]
  exact r.layers_arguments_le (r.layers_value_le _) (r.layers_condition_le _) values op.slots

end Reader

end BlockScript
