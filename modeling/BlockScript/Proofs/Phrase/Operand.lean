import BlockScript.Phrase.Reader
import BlockScript.Proofs.Phrase.Arithmetic
import Mathlib.Tactic.SplitIfs

/-!
# Operands

What a slot holds is a reporter or a condition, with reporters and conditions in its own slots.  So no command, no
container and no hat comes below the operation of a line (`Reader.areOperands_arguments`).  One lemma for each step
of reading says that it keeps this, given that reading one level below does; `Reader.isOperand_value` and
`Reader.isOperand_condition` follow by induction on the levels.
-/

namespace BlockScript

/-- Whether blocks of a shape can stand in a slot. -/
def Shape.isOperand : Shape → Bool
  | reporter => true
  | boolean => true
  | _ => false

mutual

/-- Whether all operations of a term can stand in a slot. -/
def Term.isOperand : Term → Bool
  | .apply op arguments => op.shape.isOperand && arguments.areOperands
  | .noted _ term => term.isOperand
  | .unreadable _ => true

/-- Whether all operations of an argument can stand in a slot. -/
def Argument.isOperand : Argument → Bool
  | .reference _ => true
  | .shadow _ _ => true
  | .nested _ term => term.isOperand
  | .raw _ => true
  | .unreadable _ => true

/-- Whether all operations of some arguments can stand in a slot. -/
def Arguments.areOperands : Arguments → Bool
  | .done => true
  | .input _ value rest => value.isOperand && rest.areOperands
  | .field _ _ rest => rest.areOperands

end

namespace Vocabulary

variable {shape : Shape} {t : Text} {op : Operation} {values : Bindings}

/-- An operation that is looked up by a shape is known, has this shape and reads the text. -/
theorem match?_of_lookup (h : lookup [shape] t = some (op, values)) :
    op ∈ all ∧ op.shape = shape ∧ op.match? t = some values := by
  obtain ⟨op', hmem, hop⟩ := List.exists_of_findSome?_eq_some h
  obtain ⟨values', hmatch, he⟩ := Option.map_eq_some_iff.1 hop
  obtain ⟨rfl, rfl⟩ := Prod.mk.inj he
  obtain ⟨hall, hshape⟩ := List.mem_filter.1 hmem
  exact ⟨hall, by simpa using hshape, hmatch⟩

theorem shape_of_lookup (h : lookup [shape] t = some (op, values)) : op.shape = shape :=
  (match?_of_lookup h).2.1

/-- The text shows a form of the operation that is looked up. -/
theorem exists_form_of_lookup (h : lookup [shape] t = some (op, values)) :
    op ∈ all ∧ ∃ form ∈ op.forms, form.match? t = some values := by
  obtain ⟨hall, -, hmatch⟩ := match?_of_lookup h
  exact ⟨hall, List.exists_of_findSome?_eq_some hmatch⟩

end Vocabulary

namespace Arithmetic

/-- Arithmetic has one of the operators. -/
theorem exists_operator_of_split {t : Text} {cut : Cut} (h : split? t = some cut) :
    ∃ o ∈ sums ++ products, cut.operation = o.operation := by
  obtain ⟨_, o, _, -, hstands, -, -, rfl⟩ := exists_of_split? h
  exact ⟨o, hstands.mem, rfl⟩

/-- Arithmetic is a reporter. -/
theorem shape_of_split {t : Text} {cut : Cut} (h : split? t = some cut) : cut.operation.shape = .reporter := by
  have hops : ∀ o ∈ sums ++ products, o.operation.shape = .reporter := by decide
  obtain ⟨o, ho, he⟩ := exists_operator_of_split h
  rw [he]
  exact hops o ho

end Arithmetic

namespace Reader

variable (r : Reader) {value : SlotKind → Text → Argument} {condition : Text → Term}

/-- A text reads as a reporter in three ways: as arithmetic, by a pattern of the vocabulary, and by a loose form. -/
theorem cases_of_reporter {t : Text} {op : Operation} {values : Bindings} (h : reporter? t = some (op, values)) :
    (∃ cut, Arithmetic.split? t = some cut ∧ op = cut.operation ∧
      values = [("NUM1", cut.left), ("NUM2", cut.right)]) ∨
    Vocabulary.lookup [.reporter] t = some (op, values) ∨
    ∃ form, (op, form) ∈ looseReporters ∧ form.match? t = some values := by
  unfold reporter? at h
  split at h
  · rename_i cut hcut
    obtain ⟨rfl, rfl⟩ := Prod.mk.inj (Option.some.inj h)
    exact .inl ⟨cut, hcut, rfl, rfl⟩
  · split at h
    · rename_i found hfound
      obtain rfl := Option.some.inj h
      exact .inr (.inl hfound)
    · obtain ⟨⟨op', form⟩, hmem, hfound⟩ := List.exists_of_findSome?_eq_some h
      obtain ⟨values', hmatch, he⟩ := Option.map_eq_some_iff.1 hfound
      obtain ⟨rfl, rfl⟩ := Prod.mk.inj he
      exact .inr (.inr ⟨form, hmem, hmatch⟩)

/-- A text reads as a reporter only by an operation that is one. -/
theorem shape_of_reporter {t : Text} {op : Operation} {values : Bindings}
    (h : reporter? t = some (op, values)) : op.shape = .reporter := by
  rcases cases_of_reporter h with ⟨cut, hcut, rfl, -⟩ | hlookup | ⟨form, hmem, -⟩
  · exact Arithmetic.shape_of_split hcut
  · exact Vocabulary.shape_of_lookup hlookup
  · have hloose : ∀ loose ∈ looseReporters, loose.1.shape = .reporter := by decide
    exact hloose (op, form) hmem

/-- A text splits only at a word of the list. -/
theorem exists_word_of_splitAtFirst {words : List (Text × Operation)} {t left right : Text} {op : Operation}
    (h : splitAtFirst? words t = some (op, left, right)) :
    ∃ word, (word, op) ∈ words ∧ Text.splitAtWord word t = some (left, right) := by
  obtain ⟨⟨word, op'⟩, hw, hsplit⟩ := List.exists_of_findSome?_eq_some h
  obtain ⟨sides, hsides, he⟩ := Option.map_eq_some_iff.1 hsplit
  obtain ⟨rfl, rfl⟩ := Prod.mk.inj he
  exact ⟨word, hw, hsides⟩

theorem mem_of_splitAtFirst {words : List (Text × Operation)} {t left right : Text} {op : Operation}
    (h : splitAtFirst? words t = some (op, left, right)) : ∃ w ∈ words, w.2 = op := by
  obtain ⟨word, hw, -⟩ := exists_word_of_splitAtFirst h
  exact ⟨(word, op), hw, rfl⟩

/-- A condition reads as a predicate only by one of the predicates: by a pattern, or by a loose form of a negation. -/
theorem exists_form_of_predicate {t : Text} {op : Operation} {values : Bindings}
    (h : predicate? t = some (op, values)) : op ∈ predicates ∧
      ∃ form, (form ∈ op.forms ∨ op = .negation ∧ form ∈ looseNegations) ∧ form.match? t = some values := by
  obtain ⟨op', hmem, hfound⟩ := List.exists_of_findSome?_eq_some h
  obtain ⟨values', hmatch, he⟩ := Option.map_eq_some_iff.1 hfound
  obtain ⟨rfl, rfl⟩ := Prod.mk.inj he
  refine ⟨hmem, ?_⟩
  rcases Option.or_eq_some_iff.1 hmatch with hmatch | ⟨-, hmatch⟩
  · obtain ⟨form, hform, hvalues⟩ := List.exists_of_findSome?_eq_some hmatch
    exact ⟨form, .inl hform, hvalues⟩
  · split at hmatch
    · rename_i hnegation
      obtain ⟨form, hform, hvalues⟩ := List.exists_of_findSome?_eq_some hmatch
      exact ⟨form, .inr ⟨hnegation, hform⟩, hvalues⟩
    · cases hmatch

theorem mem_of_predicate {t : Text} {op : Operation} {values : Bindings}
    (h : predicate? t = some (op, values)) : op ∈ predicates :=
  (exists_form_of_predicate h).1

/-! ### One level -/

section Steps

variable (hvalue : ∀ kind t, (value kind t).isOperand = true) (hcondition : ∀ t, (condition t).isOperand = true)

include hvalue hcondition

theorem areOperands_arguments_of (values : Bindings) (slots : List Slot) :
    (r.arguments value condition values slots).areOperands = true := by
  induction slots with
  | nil => rfl
  | cons slot slots ih =>
    unfold arguments
    split
    · exact ih
    · split_ifs
      · exact ih
      · rw [Arguments.areOperands, ih, Argument.isOperand, hcondition]
        rfl
      · rw [Arguments.areOperands, ih, Argument.isOperand]
        rfl
      · rw [Arguments.areOperands, ih, hvalue]
        rfl

private theorem isOperand_applied {op : Operation} (h : op.shape.isOperand = true) (values : Bindings) :
    (r.applied value condition op values).isOperand = true := by
  unfold applied
  rw [Term.isOperand, h, r.areOperands_arguments_of hvalue hcondition]
  rfl

theorem isOperand_valueStep (kind : SlotKind) (token : Text) :
    (r.valueStep value condition kind token).isOperand = true := by
  unfold valueStep
  split
  · dsimp only
    split <;> rfl
  · dsimp only
    split
    · rfl
    · split_ifs
      · exact hcondition _
      · split
        · rfl
        · split
          · rename_i term hterm
            obtain ⟨⟨op, values⟩, hfound, rfl⟩ := Option.map_eq_some_iff.1 hterm
            rw [Argument.isOperand]
            exact r.isOperand_applied hvalue hcondition (by rw [shape_of_reporter hfound]; rfl) values
          · rfl

theorem isOperand_conditionStep (token : Text) : (r.conditionStep value condition token).isOperand = true := by
  have hconnectives : ∀ w ∈ connectives, w.2.shape.isOperand = true := by decide
  have hcomparisons : ∀ w ∈ comparisons, w.2.shape.isOperand = true := by decide
  have hpredicates : ∀ op ∈ predicates, op.shape.isOperand = true := by decide
  unfold conditionStep
  dsimp only
  split_ifs
  · rfl
  · split
    · rename_i op left right hsplit
      obtain ⟨w, hw, rfl⟩ := mem_of_splitAtFirst hsplit
      simp [Term.isOperand, Arguments.areOperands, Argument.isOperand, hconnectives w hw, hcondition]
    · split
      · rename_i op left right hsplit
        obtain ⟨w, hw, rfl⟩ := mem_of_splitAtFirst hsplit
        simp [Term.isOperand, Arguments.areOperands, hcomparisons w hw, hvalue]
      · split
        · rename_i op values hfound
          rw [Term.isOperand]
          exact r.isOperand_applied hvalue hcondition (hpredicates op (mem_of_predicate hfound)) values
        · rfl

end Steps

/-! ### All levels -/

mutual

theorem isOperand_value : (levels : Nat) → (kind : SlotKind) → (t : Text) →
    (r.value levels kind t).isOperand = true
  | 0, _, _ => rfl
  | levels + 1, kind, t =>
    r.isOperand_valueStep (isOperand_value levels) (isOperand_condition levels) kind t

theorem isOperand_condition : (levels : Nat) → (t : Text) → (r.condition levels t).isOperand = true
  | 0, _ => rfl
  | levels + 1, t => r.isOperand_conditionStep (isOperand_value levels) (isOperand_condition levels) t

end

/-- The arguments of an operation are operands. -/
theorem areOperands_arguments (depth : Int) (op : Operation) (values : Bindings) :
    (r.argumentsAt depth op values).areOperands = true :=
  r.areOperands_arguments_of (r.isOperand_value _) (r.isOperand_condition _) values op.slots

end Reader

end BlockScript
