import BlockScript.Proofs.Outline.Reading
import BlockScript.Proofs.Phrase.Cuts

/-!
# The faults of a phrase

A phrase has few faults: a condition without text, a condition that nothing reads, and nesting that takes more levels
than there are (`Fault.OfPhrase`).  No slot is left open, since each way to read a text as an operation gives a text to
each of its slots.  A value takes no more levels than it has characters, and a condition no more than it has without
its brackets: both are cut into texts that are at least two characters shorter.

* `Reader.ofPhrase_value`, `Reader.ofPhrase_condition`: so it is at each number of levels;
* `Reader.ofLine_of_mem_faults`: the faults of a line are those of its phrase, or that there is none.
-/

namespace BlockScript

/-- The faults of a phrase; nesting is too deep only if the levels fall short. -/
inductive Fault.OfPhrase (limit : Int) (short : Prop) : Fault → Prop where
  | emptyCondition : OfPhrase limit short .emptyCondition
  | unreadableCondition (t : Text) : OfPhrase limit short (.unreadableCondition t)
  | nestingTooDeep (h : short) : OfPhrase limit short (.nestingTooDeep limit)

theorem Fault.OfPhrase.mono {limit : Int} {short short' : Prop} {fault : Fault} (h : fault.OfPhrase limit short)
    (himp : short → short') : fault.OfPhrase limit short' := by
  cases h with
  | emptyCondition => exact .emptyCondition
  | unreadableCondition t => exact .unreadableCondition t
  | nestingTooDeep h => exact .nestingTooDeep (himp h)

namespace Reader

variable (r : Reader) {value : SlotKind → Text → Argument} {condition : Text → Term}

/-! ### Slots -/

private theorem mem_names_arguments {values : Bindings} {slot : Slot} {w : Text}
    (hw : values.lookup slot.name = some w) {slots : List Slot} (hslot : slot ∈ slots) :
    (slot.kind.isField = false → slot.name ∈ (r.arguments value condition values slots).inputNames) ∧
      (slot.kind.isField = true → slot.name ∈ (r.arguments value condition values slots).fieldNames) := by
  induction slots with
  | nil => cases hslot
  | cons other slots ih =>
    unfold arguments
    rcases List.mem_cons.1 hslot with rfl | hslot
    · rw [hw]
      dsimp only
      split_ifs with hfield
      · exact ⟨fun h => absurd hfield (by simp [h]), fun _ => List.mem_cons_self⟩
      all_goals exact ⟨fun _ => List.mem_cons_self, fun h => absurd h hfield⟩
    · obtain ⟨hinputs, hfields⟩ := ih hslot
      split
      · exact ⟨hinputs, hfields⟩
      · split_ifs
        · exact ⟨hinputs, fun h => List.mem_cons_of_mem _ (hfields h)⟩
        all_goals exact ⟨fun h => List.mem_cons_of_mem _ (hinputs h), hfields⟩

/-- An operation leaves no slot open if each has a text. -/
theorem missing_arguments {op : Operation} {values : Bindings}
    (h : ∀ slot ∈ op.slots, ∃ w, values.lookup slot.name = some w) :
    op.missing (r.arguments value condition values op.slots).inputNames
      (r.arguments value condition values op.slots).fieldNames = [] := by
  rw [Operation.missing_eq_nil_iff, Operation.isFilled, Bool.and_eq_true, List.all_eq_true, List.all_eq_true]
  constructor
  · intro slot hslot
    obtain ⟨hslot, hkind⟩ := List.mem_filter.1 hslot
    obtain ⟨w, hw⟩ := h slot hslot
    exact List.contains_iff_mem.2 ((r.mem_names_arguments hw hslot).1 (by simpa using hkind))
  · intro slot hslot
    obtain ⟨hslot, hkind⟩ := List.mem_filter.1 hslot
    obtain ⟨w, hw⟩ := h slot hslot
    exact List.contains_iff_mem.2 ((r.mem_names_arguments hw hslot).2 hkind)

/-! ### One level -/

section Steps

variable {levels : Nat}
  (hvalue : ∀ kind t, ∀ f ∈ (value kind t).faults, f.OfPhrase r.limit (levels < max 1 t.length))
  (hcondition : ∀ t, ∀ f ∈ (condition t).faults, f.OfPhrase r.limit (levels < max 1 t.bareCondition.length))

include hvalue hcondition

private theorem ofPhrase_arguments {values : Bindings} {size : Nat}
    (hshort : ∀ name w, values.lookup name = some w → max 1 w.length ≤ size) (slots : List Slot) :
    ∀ f ∈ (r.arguments value condition values slots).faults, f.OfPhrase r.limit (levels < size) := by
  induction slots with
  | nil =>
    intro f hf
    cases hf
  | cons slot slots ih =>
    unfold arguments
    cases hw : values.lookup slot.name with
    | none => exact ih
    | some w =>
      have hsize := hshort _ _ hw
      dsimp only
      split_ifs
      · exact ih
      · refine List.forall_mem_append.2 ⟨fun f hf => (hcondition w f hf).mono fun h => ?_, ih⟩
        have hle := w.infix_bareCondition.length_le
        omega
      · exact ih
      · exact List.forall_mem_append.2 ⟨fun f hf => (hvalue _ w f hf).mono fun h => Nat.lt_of_lt_of_le h hsize, ih⟩

private theorem ofPhrase_applied {op : Operation} {values : Bindings} {size : Nat}
    (hbound : ∀ slot ∈ op.slots, ∃ w, values.lookup slot.name = some w)
    (hshort : ∀ name w, values.lookup name = some w → max 1 w.length ≤ size) :
    ∀ f ∈ (r.applied value condition op values).faults, f.OfPhrase r.limit (levels < size) := by
  rw [applied, Term.faults, r.missing_arguments hbound, List.append_nil]
  exact r.ofPhrase_arguments hvalue hcondition hshort op.slots

/-- Texts that are cut from a longer one take one level less. -/
private theorem ofPhrase_cut {op : Operation} {values : Bindings} {length : Nat} (h : op.CutFrom values length) :
    ∀ f ∈ (r.applied value condition op values).faults, f.OfPhrase r.limit (levels + 1 < max 1 length) := by
  have hshort : ∀ name w, values.lookup name = some w → max 1 w.length ≤ length - 1 := by
    intro name w hw
    have hcut := h.short name w hw
    omega
  exact fun f hf => (r.ofPhrase_applied hvalue hcondition h.bound hshort f hf).mono fun h => by omega

private theorem ofPhrase_valueStep (kind : SlotKind) (token : Text) :
    ∀ f ∈ (r.valueStep value condition kind token).faults,
      f.OfPhrase r.limit (levels + 1 < max 1 token.length) := by
  have hbare := token.infix_bare.length_le
  unfold valueStep
  split
  · dsimp only
    split <;> exact fun f hf => nomatch hf
  · dsimp only
    split
    · exact fun f hf => nomatch hf
    · split_ifs with hwrapped
      · intro f hf
        have hlength := Text.length_bareCondition_of_isWrapped hwrapped
        exact (hcondition _ f hf).mono fun h => by omega
      · split
        · exact fun f hf => nomatch hf
        · split
          · rename_i term hterm
            obtain ⟨⟨op, values⟩, hfound, rfl⟩ := Option.map_eq_some_iff.1 hterm
            intro f hf
            exact (r.ofPhrase_cut hvalue hcondition (cutFrom_of_reporter hfound) f hf).mono fun h => by omega
          · exact fun f hf => nomatch hf

private theorem ofPhrase_conditionStep (token : Text) :
    ∀ f ∈ (r.conditionStep value condition token).faults,
      f.OfPhrase r.limit (levels + 1 < max 1 token.bareCondition.length) := by
  have hconnectives : ∀ w ∈ connectives, w.2.missing ["OPERAND1", "OPERAND2"] [] = [] := by decide
  have hcomparisons : ∀ w ∈ comparisons, w.2.missing ["OPERAND1", "OPERAND2"] [] = [] := by decide
  unfold conditionStep
  dsimp only
  split_ifs
  · exact List.forall_mem_singleton.2 .emptyCondition
  · split
    · rename_i op left right hsplit
      obtain ⟨w, hw, rfl⟩ := mem_of_splitAtFirst hsplit
      obtain ⟨hleft, hright⟩ := length_of_splitAtFirst hsplit
      have hside : ∀ t : Text, t.length + 2 ≤ token.bareCondition.length →
          ∀ f ∈ (condition t).faults, f.OfPhrase r.limit (levels + 1 < max 1 token.bareCondition.length) := by
        intro t ht f hf
        have hle := t.infix_bareCondition.length_le
        exact (hcondition t f hf).mono fun h => by omega
      simp only [Term.faults, Arguments.faults, Argument.faults, Arguments.inputNames, Arguments.fieldNames,
        hconnectives w hw, List.append_nil]
      exact List.forall_mem_append.2 ⟨hside left hleft, hside right hright⟩
    · split
      · rename_i op left right hsplit
        obtain ⟨w, hw, rfl⟩ := mem_of_splitAtFirst hsplit
        obtain ⟨hleft, hright⟩ := length_of_splitAtFirst hsplit
        have hside : ∀ (kind : SlotKind) (t : Text), t.length + 2 ≤ token.bareCondition.length →
            ∀ f ∈ (value kind t).faults, f.OfPhrase r.limit (levels + 1 < max 1 token.bareCondition.length) := by
          intro kind t ht f hf
          exact (hvalue kind t f hf).mono fun h => by omega
        simp only [Term.faults, Arguments.faults, Arguments.inputNames, Arguments.fieldNames,
          hcomparisons w hw, List.append_nil]
        exact List.forall_mem_append.2 ⟨hside _ left hleft, hside _ right hright⟩
      · split
        · rename_i op values hfound
          exact r.ofPhrase_cut hvalue hcondition (cutFrom_of_predicate hfound)
        · exact List.forall_mem_singleton.2 (.unreadableCondition _)

end Steps

/-! ### All levels -/

mutual

/-- The faults of a value; it takes at most as many levels as it has characters. -/
theorem ofPhrase_value : (levels : Nat) → (kind : SlotKind) → (t : Text) →
    ∀ f ∈ (r.value levels kind t).faults, f.OfPhrase r.limit (levels < max 1 t.length)
  | 0, _, t => List.forall_mem_singleton.2 (.nestingTooDeep (by omega))
  | levels + 1, kind, t =>
    r.ofPhrase_valueStep (ofPhrase_value levels) (ofPhrase_condition levels) kind t

/-- The faults of a condition; it takes at most as many levels as it has characters without its brackets. -/
theorem ofPhrase_condition : (levels : Nat) → (t : Text) →
    ∀ f ∈ (r.condition levels t).faults, f.OfPhrase r.limit (levels < max 1 t.bareCondition.length)
  | 0, t => List.forall_mem_singleton.2 (.nestingTooDeep (by omega))
  | levels + 1, t => r.ofPhrase_conditionStep (ofPhrase_value levels) (ofPhrase_condition levels) t

end

/-! ### Lines -/

end Reader

/-- The number of characters of a line, or of the argument that it takes, and at least one. -/
def Line.length (line : Line) : Nat :=
  max 1 (max line.text.length (line.argument.getD []).length)

/-- The faults of a line. -/
inductive Fault.OfLine (r : Reader) (line : Line) : Fault → Prop where
  | statement : OfLine r line (.unrecognizedLine line.text)
  | trigger : OfLine r line (.unknownTrigger line.text)
  /-- A line of a kind that no line of a source has. -/
  | kind (h : line.kind = .finish ∨ ∃ name, line.kind = .other name) : OfLine r line (.missingKey line.kind.name)
  | phrase {fault : Fault} (h : fault.OfPhrase r.limit (r.limit.toNat < line.length)) : OfLine r line fault

namespace Reader

variable {r : Reader} {line : Line}

private theorem ofPhrase_termAt {op : Operation} {values : Bindings} {size : Nat}
    (hbound : ∀ slot ∈ op.slots, ∃ w, values.lookup slot.name = some w)
    (hshort : ∀ name w, values.lookup name = some w → max 1 w.length ≤ size) :
    ∀ f ∈ (r.termAt 0 op values).faults, f.OfPhrase r.limit (r.limit.toNat < size) := by
  have hlevels : r.levelsAt (0 + 1) = r.limit.toNat := by
    rw [levelsAt]
    omega
  rw [← hlevels]
  exact r.ofPhrase_applied (r.ofPhrase_value _) (r.ofPhrase_condition _) hbound hshort

private theorem ofLine_whole {shape : Shape} {t : Text} (ht : t.length ≤ line.length) {fault : Fault}
    (hfault : fault.OfLine r line) : ∀ f ∈ (r.whole shape t fault).faults, f.OfLine r line := by
  unfold whole
  split
  · rename_i op values hlookup
    have hcut := Vocabulary.cutFrom_of_lookup hlookup
    intro f hf
    refine .phrase (ofPhrase_termAt hcut.bound (fun name w hw => ?_) f hf)
    have hshort := hcut.short name w hw
    omega
  · exact List.forall_mem_singleton.2 hfault

private theorem ofLine_container {op : Operation} {slot : String} (hop : op.slots.map Slot.name = [slot]) :
    ∀ f ∈ (r.container op slot line).faults, f.OfLine r line := by
  intro f hf
  refine .phrase (ofPhrase_termAt (fun s hs => ?_) (fun name w hw => ?_) f hf)
  · have hname := List.mem_map_of_mem (f := Slot.name) hs
    rw [hop, List.mem_singleton] at hname
    rw [hname]
    exact ⟨_, List.lookup_cons_self⟩
  · simp only [List.lookup_cons, List.lookup_nil] at hw
    split at hw
    · obtain rfl := Option.some.inj hw
      rw [Line.length]
      omega
    · cases hw

/-- The faults of a line are those of its phrase, or that it has none. -/
theorem ofLine_of_mem_faults {fault : Fault} (h : fault ∈ r.faults line) : fault.OfLine r line := by
  have htext : line.text.length ≤ line.length := by
    rw [Line.length]
    omega
  unfold faults instruction at h
  cases hkind : line.kind with
  | trigger =>
    rw [hkind] at h
    exact ofLine_whole htext .trigger fault h
  | forever =>
    rw [hkind] at h
    refine .phrase (ofPhrase_termAt (fun slot hslot => ?_) (fun name w hw => ?_) fault h)
    · cases hslot
    · cases hw
  | repeatTimes =>
    rw [hkind] at h
    exact ofLine_container rfl fault h
  | repeatUntil =>
    rw [hkind] at h
    exact ofLine_container rfl fault h
  | ifThen =>
    rw [hkind] at h
    exact ofLine_container rfl fault h
  | statement =>
    rw [hkind] at h
    exact ofLine_whole htext .statement fault h
  | finish =>
    rw [hkind] at h
    obtain rfl := List.mem_singleton.1 h
    have hfault : Fault.OfLine r line (.missingKey line.kind.name) := .kind (.inl hkind)
    rwa [hkind] at hfault
  | other name =>
    rw [hkind] at h
    obtain rfl := List.mem_singleton.1 h
    have hfault : Fault.OfLine r line (.missingKey line.kind.name) := .kind (.inr ⟨name, hkind⟩)
    rwa [hkind] at hfault
  | _ =>
    rw [hkind] at h
    cases h

end Reader

end BlockScript
