import BlockScript.Proofs.Layout.Draft
import BlockScript.Proofs.Phrase.Layers

/-!
# How deep inputs lead

From the block of a line its inputs lead to the blocks of its arguments, and theirs further down.  The blocks of a term
are as deep as the term has layers (`Term.lt_layers_of_leads`), so a way over inputs that begins at the block of a line
is no longer than the limit on nesting, as long as it does not enter a body (`Outline.staysWithin_script`).
-/

namespace BlockScript

namespace Script

/-- Inputs that hold no bodies lead from one id to another one, the given number of them. -/
inductive Leads (s : Script) : BlockId → Nat → BlockId → Prop where
  | here (id : BlockId) : Leads s id 0 id
  | input {b : Block} {start next last : BlockId} {slot : String} {kind : InputKind} {k : Nat}
      (get : s.blocks.get? start = some b) (holds : .block slot kind next ∈ b.inputs)
      (isNoBody : slot ≠ firstBody ∧ slot ≠ secondBody) (rest : Leads s next k last) : Leads s start (k + 1) last

/-- No way over inputs that hold no bodies is longer than the bound, if it begins at this block and the block stands in
no slot. -/
def StaysWithin (s : Script) (bound : Nat) (b : Block) : Prop :=
  b.shape.isOperand = false → ∀ k last, s.Leads b.id k last → k ≤ bound

variable {s : Script} {b : Block} {k : Nat} {last : BlockId}

/-- A way that begins at a block ends there or goes on over one of its inputs. -/
theorem Leads.le_of_inputs {bound : Nat} (h : s.Leads b.id k last) (hget : s.blocks.get? b.id = some b)
    (hinputs : ∀ slot kind next, .block slot kind next ∈ b.inputs → slot ≠ firstBody → slot ≠ secondBody →
      ∀ k last, s.Leads next k last → k < bound) : k ≤ bound := by
  generalize hstart : b.id = start at h
  cases h with
  | here => exact Nat.zero_le bound
  | input get holds isNoBody rest =>
    -- the block that is looked up under the id of `b` is `b`, whatever else the script holds
    rw [← hstart, hget] at get
    obtain rfl := Option.some.inj get
    exact hinputs _ _ _ holds isNoBody.1 isNoBody.2 _ _ rest

end Script

variable {s : Script} {ids : IdSource}

/-! ### Terms -/

mutual

/-- A way that begins at the block of a complete term has fewer inputs than the term has layers. -/
theorem Term.lt_layers_of_leads {n k : Nat} {owner : Option BlockId} {last : BlockId} : (t : Term) → t.isComplete = true →
    (∀ c ∈ t.blocks ids n owner, s.blocks.get? c.id = some c) → s.Leads (ids n) k last → k < t.layers
  | .apply op arguments, h, hget, hleads => by
    rw [Term.isComplete, Bool.and_eq_true] at h
    rw [Term.blocks] at hget
    obtain ⟨harguments, hroot⟩ := List.forall_mem_append.1 hget
    have hle : k ≤ arguments.layers := by
      refine Script.Leads.le_of_inputs (b := Build.blockOf ..) hleads (hroot _ (List.mem_singleton.2 rfl)) ?_
      intro slot kind next holds _ _ k last hrest
      exact arguments.lt_layers_of_leads h.1 harguments holds hrest
    exact Nat.lt_succ_of_le hle
  | .noted _ term, h, hget, hleads => by
    rw [Term.isComplete] at h
    rw [Term.blocks] at hget
    rw [Term.layers]
    exact term.lt_layers_of_leads h hget hleads
  | .unreadable _, h, _, _ => by cases h

theorem Argument.lt_layers_of_leads {n k : Nat} {owner target last : BlockId} {slot slot' : String}
    {kind : InputKind} : (v : Argument) → v.isComplete = true →
      (∀ c ∈ v.blocks ids n owner, s.blocks.get? c.id = some c) →
        v.input? ids n slot = some (.block slot' kind target) → s.Leads target k last → k < v.layers
  | .shadow shadow value, _, hget, hinput, hleads => by
    obtain ⟨-, -, rfl⟩ := Input.block.inj (Option.some.inj hinput)
    rw [Argument.blocks] at hget
    have hle : k ≤ 0 := by
      refine Script.Leads.le_of_inputs (b := Build.shadowBlock ..) hleads (hget _ (List.mem_singleton.2 rfl)) ?_
      exact fun _ _ _ holds => nomatch holds
    exact Nat.lt_succ_of_le hle
  | .nested _ term, h, hget, hinput, hleads => by
    obtain ⟨-, -, rfl⟩ := Input.block.inj (Option.some.inj hinput)
    rw [Argument.isComplete] at h
    rw [Argument.blocks] at hget
    rw [Argument.layers]
    exact term.lt_layers_of_leads h hget hleads
  | .reference _, _, _, hinput, _ => by cases hinput
  | .raw _, _, _, hinput, _ => by cases hinput
  | .unreadable _, _, _, hinput, _ => by cases hinput

theorem Arguments.lt_layers_of_leads {n k : Nat} {owner target last : BlockId} {slot : String} {kind : InputKind} :
    (a : Arguments) → a.isComplete = true → (∀ c ∈ a.blocks ids n owner, s.blocks.get? c.id = some c) →
      .block slot kind target ∈ a.inputs ids n → s.Leads target k last → k < a.layers
  | .done, _, _, holds, _ => by cases holds
  | .input slot value rest, h, hget, holds, hleads => by
    rw [Arguments.isComplete, Bool.and_eq_true] at h
    rw [Arguments.blocks] at hget
    obtain ⟨hvalue, hrest⟩ := List.forall_mem_append.1 hget
    rw [Arguments.inputs, List.mem_append] at holds
    rw [Arguments.layers]
    rcases holds with holds | holds
    · exact Nat.lt_of_lt_of_le (value.lt_layers_of_leads h.1 hvalue (Option.mem_toList.1 holds) hleads)
        (Nat.le_max_left _ _)
    · exact Nat.lt_of_lt_of_le (rest.lt_layers_of_leads h.2 hrest holds hleads) (Nat.le_max_right _ _)
  | .field _ _ rest, h, hget, holds, hleads => by
    rw [Arguments.isComplete] at h
    rw [Arguments.blocks] at hget
    rw [Arguments.inputs] at holds
    rw [Arguments.layers]
    exact rest.lt_layers_of_leads h hget holds hleads

end

/-! ### Lines -/

namespace Reader

variable {r : Reader} {line : Line}

private theorem layers_termAt_le (op : Operation) (values : Bindings) :
    (r.termAt 0 op values).layers ≤ r.limit.toNat + 1 :=
  Nat.succ_le_succ (r.layers_argumentsAt_le op values)

private theorem layers_whole_le (shape : Shape) (t : Text) (fault : Fault) :
    (r.whole shape t fault).layers ≤ r.limit.toNat + 1 := by
  unfold whole
  split
  · exact layers_termAt_le _ _
  · exact Nat.zero_le _

private theorem layers_instruction_le {term : Term}
    (h : r.instruction line = .trigger term ∨ r.instruction line = .add term ∨ r.instruction line = .enter term) :
    term.layers ≤ r.limit.toNat + 1 := by
  unfold instruction at h
  split at h
  all_goals rcases h with h | h | h <;> cases h
  · exact layers_whole_le _ _ _
  · exact layers_termAt_le _ _
  · exact layers_termAt_le _ _
  · exact layers_termAt_le _ _
  · exact layers_termAt_le _ _
  · exact layers_whole_le _ _ _

/-- The arguments of a line have no more layers than the limit on nesting allows. -/
theorem layers_phrase_le (line : Line) : (r.phrase line).arguments.layers ≤ r.limit.toNat := by
  have hterm {op : Operation} {arguments : Arguments} := @layers_instruction_le r line (.apply op arguments)
  unfold phrase
  split
  · rename_i hi
    exact Nat.le_of_succ_le_succ (hterm (.inl hi))
  · rename_i hi
    exact Nat.le_of_succ_le_succ (hterm (.inr (.inl hi)))
  · rename_i hi
    exact Nat.le_of_succ_le_succ (hterm (.inr (.inr hi)))
  · exact Nat.zero_le _

/-- A block that holds the arguments of a line, and bodies, is no deeper than these arguments. -/
private theorem le_of_leads {b : Block} {n k : Nat} {owner last : BlockId} {shape : Shape} {bodies : List Input}
    (hfits : (r.phrase line).Fits shape) (hget : s.blocks.get? b.id = some b)
    (hbefore : ∀ c ∈ (r.phrase line).arguments.blocks ids n owner, s.blocks.get? c.id = some c)
    (hinputs : b.inputs = (r.phrase line).arguments.inputs ids n ++ bodies)
    (hbodies : ∀ input ∈ bodies, input.slot = Script.firstBody ∨ input.slot = Script.secondBody)
    (hleads : s.Leads b.id k last) : k ≤ r.limit.toNat := by
  refine hleads.le_of_inputs hget fun slot kind next holds hfirst hsecond k last hrest => ?_
  rw [hinputs, List.mem_append] at holds
  rcases holds with holds | hbody
  · exact Nat.lt_of_lt_of_le ((r.phrase line).arguments.lt_layers_of_leads hfits.arguments_complete hbefore holds hrest)
      (layers_phrase_le line)
  · rcases hbodies _ hbody with hslot | hslot
    · exact absurd hslot hfirst
    · exact absurd hslot hsecond

/-- The blocks of the arguments of a line all stand in slots. -/
private theorem staysWithin_before {n : Nat} {shape : Shape} (hfits : (r.phrase line).Fits shape) :
    ∀ b ∈ (r.phrase line).before ids n, s.StaysWithin r.limit.toNat b := by
  intro b hb hshape
  rw [(r.phrase line).arguments.isOperand_blocks ids _ _ hfits.operands b hb] at hshape
  cases hshape

end Reader

/-! ### Items -/

namespace Item

variable {r : Reader}

private theorem slot_of_bodyInputs (n : Nat) (item : Item) :
    ∀ input ∈ item.bodyInputs r ids n, input.slot = Script.firstBody ∨ input.slot = Script.secondBody := by
  have hbody {slot : String} {first? : Option BlockId} {input : Input}
      (hinput : input ∈ first?.toList.map (Input.block slot .substack)) : input.slot = slot := by
    obtain ⟨first, -, rfl⟩ := List.mem_map.1 hinput
    rfl
  intro input hinput
  cases item with
  | statement => cases hinput
  | enclosed => exact .inl (hbody hinput)
  | forked => exact (List.mem_append.1 hinput).imp hbody hbody

/-- The blocks that an item has itself stay within the limit. -/
theorem grants_staysWithin : Grants r ids (fun line => r.isReadable line = true) (fun c => s.blocks.get? c.id = some c)
    (s.StaysWithin r.limit.toNat) where
  before h _ := by
    obtain ⟨shape, hfits, -⟩ := fits_of_isReadable (forall_allLines_cons.1 h).1
    exact Reader.staysWithin_before hfits
  block h hget := by
    obtain ⟨hitem, -⟩ := forall_allLines_cons.1 h
    obtain ⟨shape, hfits, -⟩ := fits_of_isReadable hitem
    rw [chained_cons] at hget
    obtain ⟨hbefore, hrest⟩ := List.forall_mem_append.1 (List.forall_mem_append.1 hget).1
    intro _ k last hleads
    exact Reader.le_of_leads hfits (List.forall_mem_cons.1 hrest).1 hbefore (inputs_block hitem _)
      (slot_of_bodyInputs _ _) hleads

end Item

namespace Outline

variable {r : Reader}

/-- The blocks of a readable script stay within the limit. -/
theorem staysWithin_script {n : Nat} {o : Outline} (h : ∀ line ∈ o.lines, r.isReadable line = true)
    (hget : ∀ c ∈ o.blocks r ids n, s.blocks.get? c.id = some c) :
    ∀ b ∈ o.blocks r ids n, s.StaysWithin r.limit.toNat b := by
  obtain ⟨hbefore, hrest⟩ := List.forall_mem_append.1 hget
  have hfits := (Reader.fits_trigger o.isTrigger (forall_lines.1 h).1).2
  refine forall_blocks Item.grants_staysWithin h hget (Reader.staysWithin_before hfits) ?_
  intro _ k last hleads
  exact Reader.le_of_leads hfits (List.forall_mem_cons.1 hrest).1 hbefore (List.append_nil _).symm
    (fun input hinput => nomatch hinput) hleads

end Outline

end BlockScript
