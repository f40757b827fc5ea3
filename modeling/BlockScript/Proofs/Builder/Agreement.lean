import BlockScript.Phrase.Reader
import BlockScript.Proofs.Builder.Grows

/-!
# Phrases with more levels

With more levels a phrase reads as the same term, but for parts that were nested too deep before.  So building it does
the same, unless building stopped at such a part (`Reader.agreesWith_value`, `Reader.agreesWith_condition`).
`AgreesUnless` compares two steps and `FailsOnly` says how one step can fail; both follow the steps that a step is made
of.
-/

namespace BlockScript

/-- Two steps that do the same from every state, unless the first of them fails in the given way. -/
def AgreesUnless {ε σ α : Type} (P : ε → Prop) (x y : EStateM ε σ α) : Prop :=
  ∀ s, (∃ e s', x s = .error e s' ∧ P e) ∨ x s = y s

namespace AgreesUnless

variable {ε σ α β : Type} {P : ε → Prop}

theorem refl (x : EStateM ε σ α) : AgreesUnless P x x :=
  fun _ => .inr rfl

theorem throw {e : ε} (he : P e) (y : EStateM ε σ α) : AgreesUnless P (throw e) y :=
  fun s => .inl ⟨e, s, rfl, he⟩

theorem bind {x y : EStateM ε σ α} {f g : α → EStateM ε σ β} (hx : AgreesUnless P x y)
    (hf : ∀ a, AgreesUnless P (f a) (g a)) : AgreesUnless P (x >>= f) (y >>= g) := by
  intro s
  rcases hx s with ⟨e, s', herror, he⟩ | heq
  · exact .inl ⟨e, s', bind_eq_error_of_error herror, he⟩
  · show (∃ e s', EStateM.bind x f s = .error e s' ∧ P e) ∨ EStateM.bind x f s = EStateM.bind y g s
    unfold EStateM.bind
    rw [← heq]
    cases x s with
    | ok a t => exact hf a t
    | error e t => exact .inr rfl

theorem discard {x y : EStateM ε σ α} (hx : AgreesUnless P x y) :
    AgreesUnless P (discard x : EStateM ε σ Unit) (discard y) :=
  hx.bind fun _ => refl _

end AgreesUnless

/-- A step that fails only in the given way. -/
def FailsOnly {ε σ α : Type} (P : ε → Prop) (x : EStateM ε σ α) : Prop :=
  ∀ s e s', x s = .error e s' → P e

namespace FailsOnly

variable {ε σ α β : Type} {P : ε → Prop}

theorem pure (a : α) : FailsOnly P (Pure.pure a : EStateM ε σ α) :=
  fun _ _ _ h => nomatch h

theorem get : FailsOnly P (MonadState.get : EStateM ε σ σ) :=
  fun _ _ _ h => nomatch h

theorem modify (f : σ → σ) : FailsOnly P (modify f : EStateM ε σ PUnit) :=
  fun _ _ _ h => nomatch h

theorem throw {e : ε} (he : P e) : FailsOnly P (throw e : EStateM ε σ α) := by
  intro s e' s' h
  cases h
  exact he

theorem bind {x : EStateM ε σ α} {f : α → EStateM ε σ β} (hx : FailsOnly P x) (hf : ∀ a, FailsOnly P (f a)) :
    FailsOnly P (x >>= f) := by
  intro s e s' h
  cases hxs : x s with
  | error e' t =>
    rw [bind_eq_error_of_error hxs] at h
    cases h
    exact hx s e s' hxs
  | ok a t =>
    change EStateM.bind x f s = .error e s' at h
    rw [EStateM.bind, hxs] at h
    exact hf a t e s' h

theorem discard {x : EStateM ε σ α} (hx : FailsOnly P x) : FailsOnly P (discard x : EStateM ε σ Unit) :=
  hx.bind fun _ => pure _

end FailsOnly

/-! ### Terms -/

/-- A fault that more levels could avoid. -/
def Fault.IsTooDeep (fault : Fault) : Prop :=
  fault.kind = .nestingTooDeep

theorem Fault.isTooDeep (limit : Int) : (Fault.nestingTooDeep limit).IsTooDeep :=
  rfl

/-- Building `t'` does what building `t` does, unless `t` is nested too deep. -/
def Term.AgreesWith (t t' : Term) : Prop :=
  ∀ ids owner, AgreesUnless Fault.IsTooDeep (t.emit ids owner) (t'.emit ids owner)

/-- Building `v'` does what building `v` does, unless `v` is nested too deep. -/
def Argument.AgreesWith (v v' : Argument) : Prop :=
  ∀ ids owner slot, AgreesUnless Fault.IsTooDeep (v.emit ids owner slot) (v'.emit ids owner slot)

/-- Building `a'` does what building `a` does, unless `a` is nested too deep. -/
def Arguments.AgreesWith (a a' : Arguments) : Prop :=
  ∀ ids owner, AgreesUnless Fault.IsTooDeep (a.emit ids owner) (a'.emit ids owner)

namespace Term.AgreesWith

theorem refl (t : Term) : t.AgreesWith t :=
  fun _ _ => .refl _

theorem apply {a a' : Arguments} (ha : a.AgreesWith a') (op : Operation) :
    (Term.apply op a).AgreesWith (.apply op a') := by
  intro ids owner
  rw [Term.emit, Term.emit]
  exact (AgreesUnless.refl _).bind fun id => (ha ids id).bind fun _ => .refl _

theorem noted {t t' : Term} (ht : t.AgreesWith t') (event : Event) :
    (Term.noted event t).AgreesWith (.noted event t') := by
  intro ids owner
  rw [Term.emit, Term.emit]
  exact (AgreesUnless.refl _).bind fun _ => ht ids owner

theorem nestingTooDeep (limit : Int) (t : Term) : (Term.unreadable (.nestingTooDeep limit)).AgreesWith t :=
  fun _ _ => .throw (Fault.isTooDeep limit) _

end Term.AgreesWith

namespace Argument.AgreesWith

theorem refl (v : Argument) : v.AgreesWith v :=
  fun _ _ _ => .refl _

theorem nested {t t' : Term} (ht : t.AgreesWith t') (kind : InputKind) :
    (Argument.nested kind t).AgreesWith (.nested kind t') := by
  intro ids owner slot
  rw [Argument.emit, Argument.emit]
  exact (ht ids (some owner)).bind fun _ => .refl _

theorem nestingTooDeep (limit : Int) (v : Argument) : (Argument.unreadable (.nestingTooDeep limit)).AgreesWith v :=
  fun _ _ _ => .throw (Fault.isTooDeep limit) _

end Argument.AgreesWith

namespace Arguments.AgreesWith

theorem refl (a : Arguments) : a.AgreesWith a :=
  fun _ _ => .refl _

theorem input {v v' : Argument} {a a' : Arguments} (hv : v.AgreesWith v') (ha : a.AgreesWith a') (slot : String) :
    (Arguments.input slot v a).AgreesWith (.input slot v' a') := by
  intro ids owner
  rw [Arguments.emit, Arguments.emit]
  exact (hv ids owner slot).bind fun _ => (ha ids owner).bind fun _ => .refl _

theorem field {a a' : Arguments} (ha : a.AgreesWith a') (slot : String) (value : FieldValue) :
    (Arguments.field slot value a).AgreesWith (.field slot value a') := by
  intro ids owner
  rw [Arguments.emit, Arguments.emit]
  exact (AgreesUnless.refl _).bind fun _ => (ha ids owner).bind fun _ => .refl _

end Arguments.AgreesWith

/-! ### Levels -/

namespace Reader

variable {names : NameTable} {m m' : Int}

section Steps

variable {value value' : SlotKind → Text → Argument} {condition condition' : Text → Term}
  (hvalue : ∀ kind t, (value kind t).AgreesWith (value' kind t))
  (hcondition : ∀ t, (condition t).AgreesWith (condition' t))

include hvalue hcondition

theorem agreesWith_arguments (values : Bindings) (slots : List Slot) :
    (arguments ⟨names, m⟩ value condition values slots).AgreesWith
      (arguments ⟨names, m'⟩ value' condition' values slots) := by
  induction slots with
  | nil => exact .refl _
  | cons slot slots ih =>
    unfold arguments
    cases values.lookup slot.name with
    | none => exact ih
    | some t =>
      dsimp only
      split_ifs
      · exact .field ih slot.name _
      · exact .input (.nested (hcondition t) _) ih _
      · exact .input (.refl _) ih _
      · exact .input (hvalue _ t) ih _

private theorem agreesWith_applied (op : Operation) (values : Bindings) :
    (applied ⟨names, m⟩ value condition op values).AgreesWith
      (applied ⟨names, m'⟩ value' condition' op values) :=
  .apply (agreesWith_arguments hvalue hcondition values op.slots) op

private theorem agreesWith_valueStep (kind : SlotKind) (token : Text) :
    (valueStep ⟨names, m⟩ value condition kind token).AgreesWith
      (valueStep ⟨names, m'⟩ value' condition' kind token) := by
  unfold valueStep reporterTerm?
  split
  · exact .refl _
  · dsimp only
    split
    · exact .refl _
    · split_ifs
      · exact .nested (hcondition _) _
      · split
        · exact .refl _
        · cases reporter? token.bare with
          | none => exact .refl _
          | some found => exact .nested (agreesWith_applied hvalue hcondition found.1 found.2) _

private theorem agreesWith_conditionStep (token : Text) :
    (conditionStep ⟨names, m⟩ value condition token).AgreesWith
      (conditionStep ⟨names, m'⟩ value' condition' token) := by
  unfold conditionStep
  dsimp only
  split_ifs
  · exact .refl _
  · split
    · exact .apply (.input (.nested (hcondition _) _) (.input (.nested (hcondition _) _) (.refl _) _) _) _
    · split
      · exact .apply (.input (hvalue _ _) (.input (hvalue _ _) (.refl _) _) _) _
      · split
        · exact .noted (agreesWith_applied hvalue hcondition _ _) _
        · exact .refl _

end Steps

-- on the levels of both at once: the one with fewer of them runs out first, and then it is nested too deep
mutual

/-- A value with more levels. -/
theorem agreesWith_value : (levels levels' : Nat) → levels ≤ levels' → (kind : SlotKind) → (t : Text) →
    (value ⟨names, m⟩ levels kind t).AgreesWith (value ⟨names, m'⟩ levels' kind t)
  | 0, _, _, _, _ => .nestingTooDeep _ _
  | levels + 1, levels' + 1, h, kind, t =>
    agreesWith_valueStep (agreesWith_value levels levels' (Nat.le_of_succ_le_succ h))
      (agreesWith_condition levels levels' (Nat.le_of_succ_le_succ h)) kind t

/-- A condition with more levels. -/
theorem agreesWith_condition : (levels levels' : Nat) → levels ≤ levels' → (t : Text) →
    (condition ⟨names, m⟩ levels t).AgreesWith (condition ⟨names, m'⟩ levels' t)
  | 0, _, _, _ => .nestingTooDeep _ _
  | levels + 1, levels' + 1, h, t =>
    agreesWith_conditionStep (agreesWith_value levels levels' (Nat.le_of_succ_le_succ h))
      (agreesWith_condition levels levels' (Nat.le_of_succ_le_succ h)) t

end

theorem agreesWith_termAt (h : m ≤ m') (depth : Int) (op : Operation) (values : Bindings) :
    (termAt ⟨names, m⟩ depth op values).AgreesWith (termAt ⟨names, m'⟩ depth op values) := by
  have hlevels : levelsAt ⟨names, m⟩ (depth + 1) ≤ levelsAt ⟨names, m'⟩ (depth + 1) :=
    Int.toNat_le_toNat (by dsimp only; omega)
  exact .apply (agreesWith_arguments (agreesWith_value _ _ hlevels) (agreesWith_condition _ _ hlevels) values op.slots)
    op

end Reader

end BlockScript
