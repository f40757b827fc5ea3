import BlockScript.Graph.Encoding
import BlockScript.Vocabulary.Registry
import Mathlib.Data.List.Basic
import Mathlib.Data.Set.Function

/-!
# What the JSON of a script tells

The three forms of inputs are told apart by the names of their members, so inputs and fields are known from their JSON
(`Input.toJson_injective`, `Field.toJson_injective`).  The JSON of a block leaves out its shape.  It is known from the
opcode if the block is no shadow and its operation is one of the vocabulary, and shadows are reporters
(`Block.injOn_toJson`).
-/

namespace BlockScript

/-- The JSON of a text or of null tells which text it is, if any. -/
theorem Json.ofText?_injective : Function.Injective Json.ofText? := by
  intro value value' h
  cases value with
  | none =>
    cases value' with
    | none => rfl
    | some text => cases h
  | some text =>
    cases value' with
    | none => cases h
    | some text' =>
      obtain rfl := Json.text.inj h
      rfl

theorem InputKind.name_injective : Function.Injective InputKind.name := by
  have hinverse : ∀ kind, ofName? (name kind) = some kind := by
    intro kind
    cases kind <;> decide
  intro kind kind' h
  exact Option.some.inj ((hinverse kind).symm.trans ((congrArg ofName? h).trans (hinverse kind')))

theorem NameKind.name_injective : Function.Injective NameKind.name := by
  have hinverse : ∀ kind, ofName? (name kind) = some kind := by
    intro kind
    cases kind <;> decide
  intro kind kind' h
  exact Option.some.inj ((hinverse kind).symm.trans ((congrArg ofName? h).trans (hinverse kind')))

/-! ### Inputs and fields -/

/-- Only an input that holds a block has a member `block`, and only a reference has a member `reference`. -/
theorem Input.toJson_injective : Function.Injective Input.toJson := by
  intro input input' h
  cases input with
  | block slot kind target =>
    cases input' with
    | block slot' kind' target' =>
      simp only [toJson, Json.object.injEq, List.cons.injEq, Prod.mk.injEq, Json.text.injEq, true_and, and_true] at h
      obtain ⟨rfl, rfl, hkind⟩ := h
      rw [InputKind.name_injective hkind]
    | reference => simp [toJson] at h
    | raw => simp [toJson] at h
  | reference slot id value kind =>
    cases input' with
    | block => simp [toJson] at h
    | reference slot' id' value' kind' =>
      simp only [toJson, Json.object.injEq, List.cons.injEq, Prod.mk.injEq, Json.text.injEq, true_and, and_true] at h
      obtain ⟨rfl, rfl, rfl, hkind⟩ := h
      rw [NameKind.name_injective hkind]
    | raw => simp [toJson] at h
  | raw slot value =>
    cases input' with
    | block => simp [toJson] at h
    | reference => simp [toJson] at h
    | raw slot' value' =>
      simp only [toJson, Json.object.injEq, List.cons.injEq, Prod.mk.injEq, Json.text.injEq, true_and, and_true] at h
      obtain ⟨rfl, rfl⟩ := h
      rfl

/-- A field without an id has no member `id`. -/
theorem Field.toJson_injective : Function.Injective Field.toJson := by
  rintro ⟨slot, value, id⟩ ⟨slot', value', id'⟩ h
  obtain ⟨hslot, hrest⟩ := List.cons.inj (Json.object.inj h)
  obtain ⟨hvalue, hid⟩ := List.cons.inj hrest
  obtain rfl := Json.text.inj (congrArg Prod.snd hslot)
  obtain rfl := Json.text.inj (congrArg Prod.snd hvalue)
  cases id with
  | none =>
    cases id' with
    | none => rfl
    | some id' => cases hid
  | some id =>
    cases id' with
    | none => cases hid
    | some id' =>
      obtain rfl := Json.text.inj (congrArg Prod.snd (List.cons.inj hid).1)
      rfl

/-! ### Blocks -/

/-- The block is a shadow, or has the shape of the operation of its opcode. -/
def Block.IsOfVocabulary (b : Block) : Prop :=
  b.shadow = false → (Vocabulary.get? b.opcode).map Operation.shape = some b.shape

namespace Block

theorem IsOfVocabulary.shape_eq {b c : Block} (hb : b.IsOfVocabulary) (hc : c.IsOfVocabulary)
    (hopcode : b.opcode = c.opcode) (hshadow : b.shadow = c.shadow) : b.shape = c.shape := by
  cases hs : b.shadow with
  | true => rw [b.reporter_of_shadow hs, c.reporter_of_shadow (hshadow.symm.trans hs)]
  | false =>
    have hshape := hb hs
    rw [hopcode, hc (hshadow.symm.trans hs)] at hshape
    exact (Option.some.inj hshape).symm

/-- Blocks of the vocabulary are known from their JSON. -/
theorem injOn_toJson : Set.InjOn Block.toJson {b | b.IsOfVocabulary} := by
  intro b hb c hc h
  have hmembers := Json.object.inj h
  simp only [List.cons.injEq, Prod.mk.injEq, Json.text.injEq, Json.object.injEq, Json.bool.injEq, true_and,
    and_true] at hmembers
  obtain ⟨hid, hopcode, hnext, hparent, hinputs, hfields, hshadow, -⟩ := hmembers
  have hshape := IsOfVocabulary.shape_eq hb hc hopcode hshadow
  have hinput : Function.Injective fun input : Input => (input.slot, input.toJson) :=
    fun _ _ h => Input.toJson_injective (congrArg Prod.snd h)
  have hfield : Function.Injective fun field : Field => (field.slot, field.toJson) :=
    fun _ _ h => Field.toJson_injective (congrArg Prod.snd h)
  cases b
  cases c
  simp only [mk.injEq]
  exact ⟨hid, hopcode, hshape, List.map_injective_iff.2 hinput hinputs, List.map_injective_iff.2 hfield hfields,
    Json.ofText?_injective hparent, Json.ofText?_injective hnext, hshadow⟩

end Block

/-! ### Scripts -/

/-- A list is known from its image if each of its members is. -/
private theorem eq_of_map_eq {α β : Type} {f : α → β} {s : Set α} (hf : s.InjOn f) {l l' : List α}
    (hl : ∀ a ∈ l, a ∈ s) (hl' : ∀ a ∈ l', a ∈ s) (h : l.map f = l'.map f) : l = l' := by
  induction l generalizing l' with
  | nil => exact (List.map_eq_nil_iff.1 h.symm).symm
  | cons a l ih =>
    cases l' with
    | nil => cases h
    | cons a' l' =>
      obtain ⟨ha, hl⟩ := List.forall_mem_cons.1 hl
      obtain ⟨ha', hl'⟩ := List.forall_mem_cons.1 hl'
      obtain ⟨hhead, htail⟩ := List.cons.inj h
      rw [hf ha ha' hhead, ih hl hl' htail]

namespace Script

/-- The blocks of the script are shadows, or have the shapes of the operations of their opcodes. -/
def IsOfVocabulary (s : Script) : Prop :=
  ∀ b ∈ s.blocks.blocks, b.IsOfVocabulary

theorem injOn_toJson : Set.InjOn Script.toJson {s | s.IsOfVocabulary} := by
  intro s hs t ht h
  have hentry : Set.InjOn (fun entry : BlockId × Block => (entry.1, entry.2.toJson))
      {entry | entry.2.IsOfVocabulary} := by
    intro entry hentry entry' hentry' h
    obtain ⟨hid, hblock⟩ := Prod.mk.inj h
    exact Prod.ext hid (Block.injOn_toJson hentry hentry' hblock)
  have hmembers := Json.object.inj h
  simp only [List.cons.injEq, Prod.mk.injEq, Json.text.injEq, Json.object.injEq, true_and, and_true] at hmembers
  obtain ⟨htop, hblocks⟩ := hmembers
  have harena : s.blocks = t.blocks := eq_of_map_eq hentry
    (fun entry hmem => hs entry.2 (List.mem_map_of_mem hmem))
    (fun entry hmem => ht entry.2 (List.mem_map_of_mem hmem)) hblocks
  cases s
  cases t
  simp only [mk.injEq]
  exact ⟨htop, harena⟩

/-- Scripts of the vocabulary are known from their JSON. -/
theorem eq_of_listToJson {scripts scripts' : List Script} (h : ∀ s ∈ scripts, s.IsOfVocabulary)
    (h' : ∀ s ∈ scripts', s.IsOfVocabulary) (hjson : listToJson scripts = listToJson scripts') :
    scripts = scripts' :=
  eq_of_map_eq injOn_toJson h h' (Json.list.inj hjson)

end Script

end BlockScript
