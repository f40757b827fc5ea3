import BlockScript.Proofs.Phrase.Kept
import BlockScript.Proofs.Text.Parts
import BlockScript.Proofs.Vocabulary.Form

/-!
# Names and literals

A text is looked up in the table of known names before anything else is tried on it, and in the form in which it would
be kept.  So a reference is the entry that is found under its name, and a literal is no known name.  Quotes are the
only way around this: a quoted text is kept without its quotes and never looked up.

The texts of slots are parts of the line that is read, so a line without quotes has none in any of its slots.

* `Reader.infix_of_reporter`, `Reader.infix_of_predicate`, `Reader.infix_of_splitAtFirst`: the texts that a text is
  taken apart into are parts of it;
* `Reader.isFaithful_phrase`: the phrase of a line without quotes is faithful.
-/

namespace BlockScript

/-! ### Parts of a phrase -/

namespace Text

/-- The text has no quotes. -/
def IsQuoteless (t : Text) : Prop :=
  '"' ∉ t ∧ '\'' ∉ t

theorem IsQuoteless.of_subset {t u : Text} (h : t.IsQuoteless) (hsub : u ⊆ t) : u.IsQuoteless :=
  ⟨fun hmem => h.1 (hsub hmem), fun hmem => h.2 (hsub hmem)⟩

theorem IsQuoteless.of_isInfix {t u : Text} (h : t.IsQuoteless) (hpart : u <:+: t) : u.IsQuoteless :=
  h.of_subset hpart.subset

theorem IsQuoteless.unquoted {t : Text} (h : t.IsQuoteless) : t.unquoted? = none := by
  unfold unquoted?
  split
  · exact absurd List.mem_cons_self h.1
  · exact absurd List.mem_cons_self h.2
  · rfl

theorem CutAt.infix_both {t left right : Text} (h : CutAt t left right) : left <:+: t ∧ right <:+: t := by
  obtain ⟨front, word, behind, rfl, -, -, rfl, rfl⟩ := h.cut
  constructor
  · exact front.infix_trim.trans (List.prefix_append front _).isInfix
  · rw [← List.append_assoc]
    exact behind.infix_trim.trans (List.suffix_append _ behind).isInfix

end Text

/-- The text of a slot is a part of a text that matches. -/
theorem Form.infix_of_lookup_match? {form : Form} {t w : Text} {values : Bindings} {slot : String}
    (h : form.match? t = some values) (hw : values.lookup slot = some w) : w <:+: t := by
  obtain ⟨p, -, -, u, -, rfl, hpart⟩ := Form.exists_of_lookup_match? h hw
  exact u.infix_trim.trans hpart

namespace Reader

variable {t w : Text} {op : Operation} {values : Bindings} {name : String}

theorem infix_of_lookup {shape : Shape} (h : Vocabulary.lookup [shape] t = some (op, values))
    (hw : values.lookup name = some w) : w <:+: t := by
  obtain ⟨-, form, -, hmatch⟩ := Vocabulary.exists_form_of_lookup h
  exact Form.infix_of_lookup_match? hmatch hw

theorem infix_of_reporter (h : reporter? t = some (op, values)) (hw : values.lookup name = some w) : w <:+: t := by
  rcases cases_of_reporter h with ⟨cut, hcut, -, rfl⟩ | hlookup | ⟨form, -, hmatch⟩
  · obtain ⟨hleft, hright⟩ := (Arithmetic.cutAt_of_split hcut).infix_both
    rw [List.lookup_cons, List.lookup_cons] at hw
    split at hw
    · exact Option.some.inj hw ▸ hleft
    · split at hw
      · exact Option.some.inj hw ▸ hright
      · cases hw
  · exact infix_of_lookup hlookup hw
  · exact Form.infix_of_lookup_match? hmatch hw

theorem infix_of_predicate (h : predicate? t = some (op, values)) (hw : values.lookup name = some w) : w <:+: t := by
  obtain ⟨-, form, -, hmatch⟩ := exists_form_of_predicate h
  exact Form.infix_of_lookup_match? hmatch hw

theorem infix_of_splitAtFirst {words : List (Text × Operation)} (hwords : ∀ w ∈ words, w.1.brackets = [])
    {left right : Text} (h : splitAtFirst? words t = some (op, left, right)) : left <:+: t ∧ right <:+: t :=
  (cutAt_of_splitAtFirst hwords h).infix_both

end Reader

/-! ### Faithful terms -/

/-- Whether the shadows of an opcode hold literals or colours. -/
def isLiteralOpcode (opcode : String) : Bool :=
  "math_".toList.isPrefixOf opcode.toList || opcode == "text" || opcode == "colour_picker"

mutual

/-- The references of a term are what is found under their names, and the literals of it are no known names. -/
def Term.IsFaithful (names : NameTable) : Term → Prop
  | .apply _ arguments => arguments.AreFaithful names
  | .noted _ term => term.IsFaithful names
  | .unreadable _ => True

/-- An argument is the entry found under its name, or no known name if it is a literal. -/
def Argument.IsFaithful (names : NameTable) : Argument → Prop
  | .reference entry => names.lookup entry.name = some entry
  | .shadow shadow value => isLiteralOpcode shadow.opcode = true → names.lookup value = none
  | .nested _ term => term.IsFaithful names
  | .raw _ => True
  | .unreadable _ => True

/-- All of some arguments are faithful. -/
def Arguments.AreFaithful (names : NameTable) : Arguments → Prop
  | .done => True
  | .input _ value rest => value.IsFaithful names ∧ rest.AreFaithful names
  | .field _ _ rest => rest.AreFaithful names

end

/-- A colour is stored as it is looked up; the other menus hold no literals. -/
theorem Menu.stored_of_isLiteralOpcode {menu : Menu} (h : isLiteralOpcode menu.shadow.opcode = true) (entry : String) :
    menu.stored entry = entry := by
  have hcolor : menu = .color := by
    cases menu with
    | color => rfl
    | _ => exact absurd h (by decide)
  rw [stored, if_pos hcolor]

theorem Argument.isFaithful_reference {names : NameTable} {name : String} {entry : KnownName}
    (h : names.lookup name = some entry) : (Argument.reference entry).IsFaithful names := by
  rw [Argument.IsFaithful, NameTable.name_of_lookup h]
  exact h

namespace Reader

variable (r : Reader) {value : SlotKind → Text → Argument} {condition : Text → Term}

/-! ### One level -/

section Steps

variable (hvalue : ∀ kind t, t.IsQuoteless → (value kind t).IsFaithful r.names)
  (hcondition : ∀ t, t.IsQuoteless → (condition t).IsFaithful r.names)

include hvalue hcondition

theorem areFaithful_arguments_of {values : Bindings}
    (h : ∀ name t, values.lookup name = some t → Text.IsQuoteless t) (slots : List Slot) :
    (r.arguments value condition values slots).AreFaithful r.names := by
  induction slots with
  | nil => trivial
  | cons slot slots ih =>
    unfold arguments
    split
    · exact ih
    · rename_i t ht
      have hquoteless := h slot.name t ht
      dsimp only
      split_ifs
      · exact ih
      · exact ⟨hcondition t hquoteless, ih⟩
      · exact ⟨trivial, ih⟩
      · exact ⟨hvalue slot.kind t hquoteless, ih⟩

theorem isFaithful_valueStep (kind : SlotKind) {token : Text} (h : token.IsQuoteless) :
    (r.valueStep value condition kind token).IsFaithful r.names := by
  have hbare : token.bare.IsQuoteless := h.of_isInfix token.infix_bare
  unfold valueStep
  split
  · rename_i menu
    dsimp only
    split
    · rename_i entry hentry
      exact Argument.isFaithful_reference hentry
    · rename_i hnone
      intro hliteral
      rw [Menu.stored_of_isLiteralOpcode hliteral]
      exact hnone
  · dsimp only
    split
    · rename_i entry hentry
      exact Argument.isFaithful_reference hentry
    · rename_i hnone
      split_ifs
      · exact hcondition _ hbare
      · rw [hbare.unquoted]
        dsimp only
        split
        · rename_i term hterm
          obtain ⟨⟨op, values⟩, hfound, rfl⟩ := Option.map_eq_some_iff.1 hterm
          exact r.areFaithful_arguments_of hvalue hcondition
            (fun name t ht => hbare.of_isInfix (infix_of_reporter hfound ht)) op.slots
        · exact fun _ => hnone

theorem isFaithful_conditionStep {token : Text} (h : token.IsQuoteless) :
    (r.conditionStep value condition token).IsFaithful r.names := by
  have hconnectives : ∀ w ∈ connectives, w.1.brackets = [] := by decide
  have hcomparisons : ∀ w ∈ comparisons, w.1.brackets = [] := by decide
  have hbare : token.bareCondition.IsQuoteless := h.of_isInfix token.infix_bareCondition
  unfold conditionStep
  dsimp only
  split_ifs
  · trivial
  · split
    · rename_i op left right hsplit
      obtain ⟨hleft, hright⟩ := infix_of_splitAtFirst hconnectives hsplit
      exact ⟨hcondition left (hbare.of_isInfix hleft), hcondition right (hbare.of_isInfix hright), trivial⟩
    · split
      · rename_i op left right hsplit
        obtain ⟨hleft, hright⟩ := infix_of_splitAtFirst hcomparisons hsplit
        exact ⟨hvalue _ left (hbare.of_isInfix hleft), hvalue _ right (hbare.of_isInfix hright), trivial⟩
      · split
        · rename_i op values hfound
          exact r.areFaithful_arguments_of hvalue hcondition
            (fun name t ht => hbare.of_isInfix (infix_of_predicate hfound ht)) op.slots
        · trivial

end Steps

/-! ### All levels -/

mutual

theorem isFaithful_value : (levels : Nat) → (kind : SlotKind) → (t : Text) → t.IsQuoteless →
    (r.value levels kind t).IsFaithful r.names
  | 0, _, _, _ => trivial
  | levels + 1, kind, _, h =>
    r.isFaithful_valueStep (isFaithful_value levels) (isFaithful_condition levels) kind h

theorem isFaithful_condition : (levels : Nat) → (t : Text) → t.IsQuoteless →
    (r.condition levels t).IsFaithful r.names
  | 0, _, _ => trivial
  | levels + 1, _, h => r.isFaithful_conditionStep (isFaithful_value levels) (isFaithful_condition levels) h

end

theorem areFaithful_argumentsAt (depth : Int) (op : Operation) {values : Bindings}
    (h : ∀ name t, values.lookup name = some t → Text.IsQuoteless t) :
    (r.argumentsAt depth op values).AreFaithful r.names :=
  r.areFaithful_arguments_of (r.isFaithful_value _) (r.isFaithful_condition _) h op.slots

/-! ### Lines -/

variable {line : Line}

private theorem isFaithful_whole (shape : Shape) {t : Text} (h : t.IsQuoteless) (fault : Fault) :
    (r.whole shape t fault).IsFaithful r.names := by
  unfold whole
  split
  · rename_i op values hlookup
    exact r.areFaithful_argumentsAt 0 op fun name u hu => h.of_isInfix (infix_of_lookup hlookup hu)
  · trivial

private theorem isFaithful_container (op : Operation) (slot : String)
    (h : ∀ t ∈ line.argument, Text.IsQuoteless t) : (r.container op slot line).IsFaithful r.names := by
  refine r.areFaithful_argumentsAt 0 op fun name u hu => ?_
  obtain ⟨-, rfl⟩ := Prod.mk.inj (List.mem_singleton.1 (mem_of_lookup hu))
  cases hargument : line.argument with
  | none => exact ⟨List.not_mem_nil, List.not_mem_nil⟩
  | some argument => exact h argument hargument

private theorem isFaithful_instruction (htext : line.text.IsQuoteless)
    (hargument : ∀ t ∈ line.argument, Text.IsQuoteless t) {term : Term}
    (h : r.instruction line = .trigger term ∨ r.instruction line = .add term ∨ r.instruction line = .enter term) :
    term.IsFaithful r.names := by
  unfold instruction at h
  split at h
  all_goals rcases h with h | h | h <;> cases h
  · exact r.isFaithful_whole .hat htext _
  · refine r.areFaithful_argumentsAt 0 .forever fun _ _ hu => ?_
    cases hu
  · exact r.isFaithful_container .repeatTimes "TIMES" hargument
  · exact r.isFaithful_container .repeatUntil "CONDITION" hargument
  · exact r.isFaithful_container .ifThen "CONDITION" hargument
  · exact r.isFaithful_whole .command htext _

/-- The phrase of a line without quotes is faithful. -/
theorem areFaithful_phrase (htext : line.text.IsQuoteless) (hargument : ∀ t ∈ line.argument, Text.IsQuoteless t) :
    (r.phrase line).arguments.AreFaithful r.names := by
  have hterm {op : Operation} {arguments : Arguments} := @isFaithful_instruction r line htext hargument
    (.apply op arguments)
  unfold phrase
  split
  · rename_i hi
    exact hterm (.inl hi)
  · rename_i hi
    exact hterm (.inr (.inl hi))
  · rename_i hi
    exact hterm (.inr (.inr hi))
  · trivial

end Reader

end BlockScript
