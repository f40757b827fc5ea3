import BlockScript.Proofs.Phrase.Operand
import BlockScript.Proofs.Text.Parts
import BlockScript.Proofs.Text.Tokens
import BlockScript.Proofs.Text.Wrapping
import BlockScript.Proofs.Vocabulary.Bytes
import BlockScript.Proofs.Vocabulary.Form

/-!
# Cut texts get shorter

A phrase is read by cutting it into the texts of its slots.  These leave at least two characters of the phrase to what
stands around them: a word of the operation, brackets, or an operator with an edge (`Operation.CutFrom`).  The angle
brackets around a condition are two characters, too.

* `Vocabulary.cutFrom_of_lookup`, `Reader.cutFrom_of_reporter`, `Reader.cutFrom_of_predicate`: each way to read a text
  as an operation gives a text to each of its slots, and cuts these texts from the one that is read.
-/

namespace BlockScript

/-! ### Brackets -/

namespace Text

theorem length_inner (t : Text) : t.inner.length = t.length - 2 := by
  rw [inner, List.length_dropLast, List.length_tail]
  omega

theorem isWrapped_all {kinds : List Bracket} {t : Text} (h : isWrapped kinds t = true) :
    isWrapped Bracket.all t = true := by
  match t with
  | [] => cases h
  | [_] => cases h
  | c :: d :: rest =>
    unfold isWrapped at h ⊢
    dsimp only at h ⊢
    split at h
    · rename_i b hb
      have hkind : Bracket.all.contains b = true := by cases b <;> decide
      rw [Bool.and_assoc, Bool.and_eq_true] at h
      rw [Bool.and_assoc, hkind, h.2]
      rfl
    · cases h

/-- A text that brackets wrap loses them where it is read as a condition. -/
theorem length_bareCondition_of_isWrapped {kinds : List Bracket} {t : Text} (h : isWrapped kinds t = true) :
    t.bareCondition.length + 2 ≤ t.length := by
  obtain ⟨b, u, rfl, -⟩ := exists_of_isWrapped h
  have htrim : trim (b.opener :: (u ++ [b.closer])) = b.opener :: (u ++ [b.closer]) := by
    refine trim_eq_self ⟨⟨_, _, rfl, ?_⟩, ⟨b.opener :: u, _, rfl, ?_⟩⟩ <;> cases b <;> decide
  have hall := isWrapped_all h
  have hpeel := (infix_peel Bracket.all (inner (b.opener :: (u ++ [b.closer])))).length_le
  rw [length_inner] at hpeel
  rw [bareCondition, peel, htrim, dif_pos hall]
  simp only [List.length_cons, List.length_append, List.length_nil] at hpeel ⊢
  omega

/-! ### Words -/

/-- The sides of a word leave the blanks around it. -/
theorem length_of_splitAtWord {word t left right : Text} (h : splitAtWord word t = some (left, right)) :
    left.length + 2 ≤ t.length ∧ right.length + 2 ≤ t.length := by
  obtain ⟨front, behind, rfl, -, rfl, rfl⟩ := exists_of_splitAtWord h
  have hleft := length_trim_le front
  have hright := length_trim_le behind
  simp only [List.length_append, List.length_cons, List.length_nil]
  omega

end Text

/-! ### Operators -/

namespace Arithmetic

/-- The sides of an operator leave its sign and an edge on the other side of it. -/
theorem length_of_split {t : Text} {cut : Cut} (h : split? t = some cut) :
    cut.left.length + 2 ≤ t.length ∧ cut.right.length + 2 ≤ t.length := by
  obtain ⟨before, o, after, rfl, hstands, hbefore, hafter, rfl⟩ := exists_of_split? h
  have hleft := Text.length_trim_le before
  have hright := Text.length_trim_le after
  have hpos := List.length_pos_of_ne_nil hbefore
  have hpos' := List.length_pos_of_ne_nil hafter
  have hsign := List.length_pos_of_ne_nil (sign_of_mem hstands.mem).1
  rw [List.length_append, List.length_append]
  dsimp only
  omega

end Arithmetic

/-! ### Forms -/

/-- Whether a piece requires a character outside of all slots. -/
def Piece.isRequired : Piece → Bool
  | oneOf _ => true
  | _ => false

theorem Piece.length_of_isRequired {p : Piece} (hp : p.isRequired = true) {u : Text} (hu : p.Shows u) :
    p.slot? = none ∧ u.length = 1 := by
  cases p with
  | oneOf set =>
    obtain ⟨c, -, rfl⟩ := hu
    exact ⟨rfl, rfl⟩
  | _ => cases hp

namespace Form

variable {form : Form} {t : Text} {values : Bindings}

/-- The number of characters that a form requires outside of its slots. -/
def required (form : Form) : Nat :=
  form.countP Piece.isRequired

/-- Each slot of a form is bound. -/
theorem exists_lookup_of_match? (h : form.match? t = some values) {slot : String} (hslot : slot ∈ form.slots) :
    ∃ w, values.lookup slot = some w := by
  induction form generalizing t values with
  | nil => cases hslot
  | cons p form ih =>
    obtain ⟨u, rest, found, rfl, hu, hnext, rfl⟩ := Piece.exists_of_run h
    rw [slots, List.filterMap_cons] at hslot
    unfold Piece.bound
    cases hp : p.slot? with
    | none =>
      rw [hp] at hslot
      exact ih hnext hslot
    | some name =>
      rw [hp] at hslot
      rw [Option.toList, List.map_cons, List.map_nil, List.singleton_append, List.lookup_cons]
      split
      · exact ⟨_, rfl⟩
      · rename_i hname
        refine ih hnext ((List.mem_cons.1 hslot).resolve_left fun he => ?_)
        rw [he, beq_self_eq_true] at hname
        cases hname

private theorem required_le_of_match? (h : form.match? t = some values) : form.required ≤ t.length := by
  induction form generalizing t values with
  | nil => exact Nat.zero_le _
  | cons p form ih =>
    obtain ⟨u, rest, found, rfl, hu, hnext, -⟩ := Piece.exists_of_run h
    have hrest : form.countP Piece.isRequired ≤ rest.length := ih hnext
    rw [required, List.countP_cons, List.length_append]
    split_ifs with hp
    · have hlength := (Piece.length_of_isRequired hp hu).2
      omega
    · omega

/-- The text of a slot leaves the characters that the form requires outside of it. -/
theorem length_of_lookup_match? {slot : String} {w : Text} (h : form.match? t = some values)
    (hw : values.lookup slot = some w) : w.length + form.required ≤ t.length := by
  induction form generalizing t values with
  | nil =>
    unfold match? at h
    split at h
    · obtain rfl := Option.some.inj h
      cases hw
    · cases h
  | cons p form ih =>
    obtain ⟨u, rest, found, rfl, hu, hnext, rfl⟩ := Piece.exists_of_run h
    have hrest : form.countP Piece.isRequired ≤ rest.length := required_le_of_match? hnext
    rw [required, List.countP_cons, List.length_append]
    unfold Piece.bound at hw
    cases hp : p.slot? with
    | none =>
      rw [hp] at hw
      have hfound : w.length + form.countP Piece.isRequired ≤ rest.length := ih hnext hw
      split_ifs with hrequired
      · have hlength := (Piece.length_of_isRequired hrequired hu).2
        omega
      · omega
    | some name =>
      rw [if_neg fun hrequired => by rw [(Piece.length_of_isRequired hrequired hu).1] at hp; cases hp]
      rw [hp, Option.toList, List.map_cons, List.map_nil, List.singleton_append, List.lookup_cons] at hw
      split at hw
      · obtain rfl := Option.some.inj hw
        have htrim := Text.length_trim_le u
        omega
      · have hfound : w.length + form.countP Piece.isRequired ≤ rest.length := ih hnext hw
        omega

end Form

/-! ### Operations -/

/-- Each slot of an operation has a text, and these texts are cut from one of the given length, leaving two of its
characters. -/
structure Operation.CutFrom (op : Operation) (values : Bindings) (length : Nat) : Prop where
  bound : ∀ slot ∈ op.slots, ∃ w, values.lookup slot.name = some w
  short : ∀ name w, values.lookup name = some w → w.length + 2 ≤ length

namespace Operation

/-- Whether a form has the slots of an operation and requires two characters outside of them. -/
def isCutBy (op : Operation) (form : Form) : Bool :=
  op.slots.all (form.slots.contains ·.name) && 2 ≤ form.required

theorem cutFrom_of_match? {op : Operation} {form : Form} (hform : op.isCutBy form = true) {t : Text}
    {values : Bindings} (h : form.match? t = some values) : op.CutFrom values t.length := by
  obtain ⟨hslots, hrequired⟩ := Bool.and_eq_true_iff.1 hform
  refine ⟨fun slot hslot => ?_, fun name w hw => ?_⟩
  · exact Form.exists_lookup_of_match? h (List.contains_iff_mem.1 (List.all_eq_true.1 hslots slot hslot))
  · exact Nat.le_trans (Nat.add_le_add_left (of_decide_eq_true hrequired) _) (Form.length_of_lookup_match? h hw)

end Operation

namespace Vocabulary

/-- The patterns of the vocabulary name all slots and spell out two characters around them. -/
theorem isCutBy_of_mem : ∀ op ∈ all, ∀ form ∈ op.forms, op.isCutBy form = true := by
  simp only [Operation.forms_eq_ofString]
  decide +kernel

theorem cutFrom_of_lookup {shape : Shape} {t : Text} {op : Operation} {values : Bindings}
    (h : lookup [shape] t = some (op, values)) : op.CutFrom values t.length := by
  obtain ⟨hall, form, hform, hvalues⟩ := exists_form_of_lookup h
  exact Operation.cutFrom_of_match? (isCutBy_of_mem op hall form hform) hvalues

end Vocabulary

namespace Reader

theorem cutFrom_of_reporter {t : Text} {op : Operation} {values : Bindings}
    (h : reporter? t = some (op, values)) : op.CutFrom values t.length := by
  rcases cases_of_reporter h with ⟨cut, hcut, rfl, rfl⟩ | hlookup | ⟨form, hmem, hmatch⟩
  · obtain ⟨hleft, hright⟩ := Arithmetic.length_of_split hcut
    have hslots : ∀ o ∈ Arithmetic.sums ++ Arithmetic.products,
        o.operation.slots.map Slot.name = ["NUM1", "NUM2"] := by decide
    obtain ⟨o, ho, he⟩ := Arithmetic.exists_operator_of_split hcut
    refine ⟨fun slot hslot => ?_, fun name w hw => ?_⟩
    · have hname := List.mem_map_of_mem (f := Slot.name) hslot
      rw [he, hslots o ho] at hname
      simp only [List.mem_cons, List.not_mem_nil, or_false] at hname
      rcases hname with hname | hname <;> rw [hname] <;> exact ⟨_, rfl⟩
    · simp only [List.lookup_cons, List.lookup_nil] at hw
      split at hw
      · exact Option.some.inj hw ▸ hleft
      · split at hw
        · exact Option.some.inj hw ▸ hright
        · cases hw
  · exact Vocabulary.cutFrom_of_lookup hlookup
  · have hloose : ∀ loose ∈ looseReporters, loose.1.isCutBy loose.2 = true := by decide +kernel
    exact Operation.cutFrom_of_match? (hloose (op, form) hmem) hmatch

theorem cutFrom_of_predicate {t : Text} {op : Operation} {values : Bindings}
    (h : predicate? t = some (op, values)) : op.CutFrom values t.length := by
  have hknown : ∀ op ∈ predicates, op ∈ Vocabulary.all := by decide +kernel
  have hloose : ∀ form ∈ looseNegations, Operation.negation.isCutBy form = true := by decide +kernel
  obtain ⟨hmem, form, hform, hvalues⟩ := exists_form_of_predicate h
  rcases hform with hform | ⟨rfl, hform⟩
  · exact Operation.cutFrom_of_match? (Vocabulary.isCutBy_of_mem op (hknown op hmem) form hform) hvalues
  · exact Operation.cutFrom_of_match? (hloose form hform) hvalues

theorem length_of_splitAtFirst {words : List (Text × Operation)} {t left right : Text} {op : Operation}
    (h : splitAtFirst? words t = some (op, left, right)) :
    left.length + 2 ≤ t.length ∧ right.length + 2 ≤ t.length := by
  obtain ⟨word, -, hsides⟩ := exists_word_of_splitAtFirst h
  exact Text.length_of_splitAtWord hsides

end Reader

end BlockScript
