import BlockScript.Proofs.Builder.Grows

/-!
# The faults of a term

Building a term stops at the first of its faults: at a part that could not be read, or at an operation with open
slots (`Term.meets_emit`).  It can also stop in front of that, when an id comes twice; but ids that are all different
never come twice to a builder that has drawn all its ids from them (`Builder.Drew`).
-/

namespace BlockScript

namespace Operation

/-- The names of the slots that inputs and fields of the given names leave open. -/
def openSlots (op : Operation) (inputNames fieldNames : List String) : List String :=
  (op.inputSlots.filter (!inputNames.contains ·.name)).map Slot.name ++
    (op.fieldSlots.filter (!fieldNames.contains ·.name)).map Slot.name

/-- The fault of an operation with open slots. -/
def missing (op : Operation) (inputNames fieldNames : List String) : List Fault :=
  if op.openSlots inputNames fieldNames = [] then []
  else [.missingSlots op.opcode (op.openSlots inputNames fieldNames)]

theorem missing_eq_nil_iff {op : Operation} {inputNames fieldNames : List String} :
    op.missing inputNames fieldNames = [] ↔ op.isFilled inputNames fieldNames = true := by
  have hopen : op.openSlots inputNames fieldNames = [] ↔ op.isFilled inputNames fieldNames = true := by
    simp [openSlots, isFilled]
  rw [← hopen, missing, ite_eq_left_iff]
  exact ⟨fun h => by_contra fun hne => List.cons_ne_nil _ _ (h hne), fun h hne => absurd h hne⟩

end Operation

mutual

/-- The faults of a term, in the order in which building meets them. -/
def Term.faults : Term → List Fault
  | .apply op arguments => arguments.faults ++ op.missing arguments.inputNames arguments.fieldNames
  | .noted _ term => term.faults
  | .unreadable fault => [fault]

/-- The faults of an argument. -/
def Argument.faults : Argument → List Fault
  | .reference _ => []
  | .shadow _ _ => []
  | .nested _ term => term.faults
  | .raw _ => []
  | .unreadable fault => [fault]

/-- The faults of some arguments. -/
def Arguments.faults : Arguments → List Fault
  | .done => []
  | .input _ value rest => value.faults ++ rest.faults
  | .field _ _ rest => rest.faults

end

mutual

/-- A term is complete if it has no faults. -/
theorem Term.faults_eq_nil_iff : (t : Term) → (t.faults = [] ↔ t.isComplete = true)
  | .apply op arguments => by
    rw [Term.faults, Term.isComplete, List.append_eq_nil_iff, Bool.and_eq_true, arguments.faults_eq_nil_iff,
      Operation.missing_eq_nil_iff]
  | .noted _ term => by rw [Term.faults, Term.isComplete, term.faults_eq_nil_iff]
  | .unreadable _ => by simp [Term.faults, Term.isComplete]

theorem Argument.faults_eq_nil_iff : (v : Argument) → (v.faults = [] ↔ v.isComplete = true)
  | .reference _ => by simp [Argument.faults, Argument.isComplete]
  | .shadow _ _ => by simp [Argument.faults, Argument.isComplete]
  | .nested _ term => by rw [Argument.faults, Argument.isComplete, term.faults_eq_nil_iff]
  | .raw _ => by simp [Argument.faults, Argument.isComplete]
  | .unreadable _ => by simp [Argument.faults, Argument.isComplete]

theorem Arguments.faults_eq_nil_iff : (a : Arguments) → (a.faults = [] ↔ a.isComplete = true)
  | .done => by simp [Arguments.faults, Arguments.isComplete]
  | .input _ value rest => by
    rw [Arguments.faults, Arguments.isComplete, List.append_eq_nil_iff, Bool.and_eq_true, value.faults_eq_nil_iff,
      rest.faults_eq_nil_iff]
  | .field _ _ rest => by rw [Arguments.faults, Arguments.isComplete, rest.faults_eq_nil_iff]

end

/-! ### The first fault -/

/-- A fault of an id source, not of a phrase. -/
def Fault.IsRepeat (fault : Fault) : Prop :=
  ∃ id, fault = .duplicateId id

/-- All ids of the builder have been drawn from `ids`. -/
def Builder.Drew (ids : IdSource) (b : Builder) : Prop :=
  ∀ id ∈ b.issued, ∃ k < b.drawn, id = ids k

theorem Builder.drew_empty (ids : IdSource) (drawn : Nat) (events : Array Event) : (empty drawn events).Drew ids :=
  fun _ hid => nomatch hid

namespace Build

variable {α β : Type} {ids : IdSource}

/-- A step that stops at the first of some faults.  It can stop in front of that at an id that comes twice, but not if
the ids are all different and none of another source has been drawn. -/
def Meets (ids : IdSource) (faults : List Fault) (x : Build α) : Prop :=
  ∀ b, match x b with
    | .ok _ b' => faults = [] ∧ (b.Drew ids → b'.Drew ids)
    | .error fault _ =>
      faults.head? = some fault ∨ (fault.IsRepeat ∧ ¬ (Function.Injective ids ∧ b.Drew ids))

theorem Meets.bind {x : Build α} {f : α → Build β} {faults faults' : List Fault} (hx : Meets ids faults x)
    (hf : ∀ a b b', x b = .ok a b' → Meets ids faults' (f a)) : Meets ids (faults ++ faults') (x >>= f) := by
  intro b
  have hxb := hx b
  show match EStateM.bind x f b with
    | .ok _ b' => faults ++ faults' = [] ∧ (b.Drew ids → b'.Drew ids)
    | .error fault _ =>
      (faults ++ faults').head? = some fault ∨ (fault.IsRepeat ∧ ¬ (Function.Injective ids ∧ b.Drew ids))
  unfold EStateM.bind
  cases hxr : x b with
  | error fault b' =>
    rw [hxr] at hxb
    exact hxb.imp_left fun h => by rw [List.head?_append, h]; rfl
  | ok a b' =>
    rw [hxr] at hxb
    obtain ⟨rfl, hdrew⟩ := hxb
    have hfb := hf a b b' hxr b'
    show match f a b' with
      | .ok _ b' => faults' = [] ∧ (b.Drew ids → b'.Drew ids)
      | .error fault _ =>
        faults'.head? = some fault ∨ (fault.IsRepeat ∧ ¬ (Function.Injective ids ∧ b.Drew ids))
    cases hfr : f a b' with
    | ok _ _ =>
      rw [hfr] at hfb
      exact ⟨hfb.1, fun h => hfb.2 (hdrew h)⟩
    | error _ _ =>
      rw [hfr] at hfb
      exact hfb.imp_right fun h => ⟨h.1, fun hb => h.2 ⟨hb.1, hdrew hb.2⟩⟩

/-- A step without faults, and then one with them. -/
theorem Meets.after {x : Build α} {f : α → Build β} {faults : List Fault} (hx : Meets ids [] x)
    (hf : ∀ a b b', x b = .ok a b' → Meets ids faults (f a)) : Meets ids faults (x >>= f) :=
  hx.bind hf

/-- A step with faults, and then one without them. -/
theorem Meets.before {x : Build α} {f : α → Build β} {faults : List Fault} (hx : Meets ids faults x)
    (hf : ∀ a b b', x b = .ok a b' → Meets ids [] (f a)) : Meets ids faults (x >>= f) := by
  rw [← List.append_nil faults]
  exact hx.bind hf

theorem Meets.pure (a : α) : Meets ids [] (Pure.pure a : Build α) :=
  fun _ => ⟨rfl, id⟩

theorem Meets.throw (fault : Fault) : Meets ids [fault] (throw fault : Build α) :=
  fun _ => .inl rfl

theorem meets_report (event : Event) : Meets ids [] (report event) :=
  fun _ => ⟨rfl, id⟩

theorem drawId_eq_error {b b' : Builder} {fault : Fault} (h : drawId ids b = .error fault b') :
    ids b.drawn ∈ b.issued ∧ fault = .duplicateId (ids b.drawn) := by
  by_cases hmem : ids b.drawn ∈ b.issued
  · have hdraw : drawId ids b = .error (.duplicateId (ids b.drawn)) { b with drawn := b.drawn + 1 } := by
      show (ite (b.issued.contains (ids b.drawn) = true) _ _ : Build BlockId) b = _
      rw [if_pos (List.contains_iff_mem.2 hmem)]
      rfl
    rw [hdraw] at h
    cases h
    exact ⟨hmem, rfl⟩
  · rw [drawId_eq_ok_iff.2 ⟨rfl, hmem, rfl⟩] at h
    cases h

theorem meets_drawId : Meets ids [] (drawId ids) := by
  intro b
  cases hdraw : drawId ids b with
  | ok id b' =>
    obtain ⟨rfl, -, rfl⟩ := drawId_eq_ok_iff.1 hdraw
    refine ⟨rfl, fun hb id hid => ?_⟩
    rcases List.mem_append.1 hid with hid | hid
    · obtain ⟨k, hk, rfl⟩ := hb id hid
      exact ⟨k, Nat.lt_succ_of_lt hk, rfl⟩
    · exact ⟨b.drawn, Nat.lt_succ_self _, List.mem_singleton.1 hid⟩
  | error fault b' =>
    obtain ⟨hrepeat, rfl⟩ := drawId_eq_error hdraw
    refine .inr ⟨⟨_, rfl⟩, fun ⟨hinjective, hb⟩ => ?_⟩
    obtain ⟨k, hk, hid⟩ := hb _ hrepeat
    exact Nat.ne_of_gt hk (hinjective hid)

theorem meets_addShadow (shadow : Shadow) (value : String) (owner : BlockId) :
    Meets ids [] (addShadow ids shadow value owner) :=
  meets_drawId.after fun _ _ _ _ => Meets.after (fun _ => ⟨rfl, fun hb => hb⟩) fun _ _ _ _ => .pure _

theorem unfilled_eq_openSlots (op : Operation) (inputs : List Input) (fields : List Field) :
    unfilled op inputs fields = op.openSlots (inputs.map Input.slot) (fields.map Field.slot) := by
  simp only [unfilled, Operation.openSlots, has_eq_contains]

theorem meets_addBlock (op : Operation) (id : BlockId) (inputs : List Input) (fields : List Field)
    (parent : Option BlockId) : Meets ids (op.missing (inputs.map Input.slot) (fields.map Field.slot))
      (addBlock op id inputs fields parent) := by
  rw [addBlock, Operation.missing, unfilled_eq_openSlots]
  by_cases hopen : op.openSlots (inputs.map Input.slot) (fields.map Field.slot) = []
  · rw [if_pos hopen, if_pos hopen]
    exact fun _ => ⟨rfl, fun hb => hb⟩
  · rw [if_neg hopen, if_neg hopen]
    exact .throw _

end Build

theorem FieldValue.meets_emit {ids : IdSource} (slot : String) (v : FieldValue) :
    Build.Meets ids [] (v.emit slot) := by
  intro b
  obtain ⟨events, hemit⟩ := v.emit_ok slot b
  rw [hemit]
  exact ⟨rfl, fun hb => hb⟩

/-- An argument is built into an input of its slot. -/
theorem Argument.slot_of_emit {ids : IdSource} {owner : BlockId} {slot : String} {v : Argument} {b b' : Builder}
    {input : Input} (h : v.emit ids owner slot b = .ok input b') : input.slot = slot := by
  cases v with
  | reference entry => cases h; rfl
  | shadow shadow value =>
    rw [Argument.emit] at h
    obtain ⟨_, _, -, h⟩ := bind_eq_ok_iff.1 h
    cases h
    rfl
  | nested kind term =>
    rw [Argument.emit] at h
    obtain ⟨_, _, -, h⟩ := bind_eq_ok_iff.1 h
    cases h
    rfl
  | raw value => cases h; rfl
  | unreadable fault => exact absurd h throw_ne_ok

/-- Arguments are built into inputs and fields of their slots. -/
theorem Arguments.names_of_emit {ids : IdSource} {owner : BlockId} : (a : Arguments) → ∀ {b b' : Builder}
    {inputs : List Input} {fields : List Field}, a.emit ids owner b = .ok (inputs, fields) b' →
      inputs.map Input.slot = a.inputNames ∧ fields.map Field.slot = a.fieldNames
  | .done, _, _, _, _, h => by cases h; exact ⟨rfl, rfl⟩
  | .input slot value rest, _, _, _, _, h => by
    rw [Arguments.emit] at h
    obtain ⟨input, _, hvalue, h⟩ := bind_eq_ok_iff.1 h
    obtain ⟨⟨inputs, fields⟩, _, hrest, h⟩ := bind_eq_ok_iff.1 h
    cases h
    obtain ⟨hinputs, hfields⟩ := rest.names_of_emit hrest
    rw [List.map_cons, Argument.slot_of_emit hvalue, hinputs, Arguments.inputNames]
    exact ⟨rfl, hfields⟩
  | .field slot value rest, _, _, _, _, h => by
    rw [Arguments.emit] at h
    obtain ⟨field, _, hvalue, h⟩ := bind_eq_ok_iff.1 h
    obtain ⟨⟨inputs, fields⟩, _, hrest, h⟩ := bind_eq_ok_iff.1 h
    cases h
    obtain ⟨hinputs, hfields⟩ := rest.names_of_emit hrest
    obtain ⟨rfl, -⟩ := FieldValue.emit_eq_ok hvalue
    refine ⟨hinputs, ?_⟩
    rw [List.map_cons, hfields, Arguments.fieldNames]
    rcases value with _ | ⟨_, _ | _⟩
    · rfl
    · rfl
    · rfl

mutual

/-- Building a term stops at its first fault. -/
theorem Term.meets_emit (ids : IdSource) (owner : Option BlockId) :
    (t : Term) → Build.Meets ids t.faults (t.emit ids owner)
  | .apply op arguments => by
    rw [Term.emit, Term.faults]
    refine Build.meets_drawId.after fun id _ _ _ => (arguments.meets_emit ids id).bind fun built _ _ hbuilt => ?_
    obtain ⟨inputs, fields⟩ := built
    obtain ⟨hinputs, hfields⟩ := arguments.names_of_emit hbuilt
    rw [← hinputs, ← hfields]
    exact (Build.meets_addBlock op id inputs fields owner).before fun _ _ _ _ => .pure id
  | .noted event term => by
    rw [Term.emit, Term.faults]
    exact (Build.meets_report event).after fun _ _ _ _ => term.meets_emit ids owner
  | .unreadable fault => .throw fault

theorem Argument.meets_emit (ids : IdSource) (owner : BlockId) (slot : String) :
    (v : Argument) → Build.Meets ids v.faults (v.emit ids owner slot)
  | .reference _ => .pure _
  | .shadow shadow value => by
    rw [Argument.emit, Argument.faults]
    exact (Build.meets_addShadow shadow value owner).after fun _ _ _ _ => .pure _
  | .nested kind term => by
    rw [Argument.emit, Argument.faults]
    exact (term.meets_emit ids (some owner)).before fun _ _ _ _ => .pure _
  | .raw _ => .pure _
  | .unreadable fault => .throw fault

theorem Arguments.meets_emit (ids : IdSource) (owner : BlockId) :
    (a : Arguments) → Build.Meets ids a.faults (a.emit ids owner)
  | .done => .pure _
  | .input slot value rest => by
    rw [Arguments.emit, Arguments.faults]
    exact (value.meets_emit ids owner slot).bind fun _ _ _ _ =>
      (rest.meets_emit ids owner).before fun _ _ _ _ => .pure _
  | .field slot value rest => by
    rw [Arguments.emit, Arguments.faults]
    exact (value.meets_emit slot).after fun _ _ _ _ =>
      (rest.meets_emit ids owner).before fun _ _ _ _ => .pure _

end

/-- With ids that are all different, building a term that has faults stops at the first of them. -/
theorem Term.exists_emit_error {ids : IdSource} (h : Function.Injective ids) (owner : Option BlockId) {t : Term}
    {b : Builder} (hb : b.Drew ids) {fault : Fault} (ht : t.faults.head? = some fault) :
    ∃ b', t.emit ids owner b = .error fault b' := by
  have hmeets := t.meets_emit ids owner b
  cases hemit : t.emit ids owner b with
  | ok id b' =>
    rw [hemit] at hmeets
    rw [hmeets.1] at ht
    cases ht
  | error fault' b' =>
    rw [hemit] at hmeets
    have hhead := hmeets.resolve_right fun hrepeat => hrepeat.2 ⟨h, hb⟩
    obtain rfl := Option.some.inj (hhead.symm.trans ht)
    exact ⟨b', rfl⟩

end BlockScript
