import BlockScript.Proofs.Layout.Term

/-!
# Growth of the builder

What a successful step does is found by taking it apart (`bind_eq_ok_iff` and the lemmas about single steps).  Steps
that build terms only add to the builder: `Builder.Grows` says that ids have been drawn and blocks been appended,
and `Builder.Sound` that no id has been drawn twice and that all blocks stand under drawn ids.

* `Term.emit_grows`: building a term succeeds only if the term is complete, and then appends its blocks;
* `Term.emit_of_isComplete`: building a complete term succeeds if the ids that it takes are new;
* `Term.exists_emit`: then each of its blocks is found under its id.
-/

namespace BlockScript

theorem bind_eq_ok_iff {ε σ α β : Type} {x : EStateM ε σ α} {f : α → EStateM ε σ β} {s s' : σ} {b : β} :
    (x >>= f) s = .ok b s' ↔ ∃ a t, x s = .ok a t ∧ f a t = .ok b s' := by
  show EStateM.bind x f s = .ok b s' ↔ _
  unfold EStateM.bind
  cases h : x s with
  | ok a t => exact ⟨fun e => ⟨a, t, rfl, e⟩, by rintro ⟨_, _, ⟨⟩, e⟩; exact e⟩
  | error e t =>
    constructor
    · intro e
      cases e
    · rintro ⟨_, _, ⟨⟩, _⟩

theorem bind_eq_error {ε σ α β : Type} {x : EStateM ε σ α} {f : α → EStateM ε σ β} {s t s' : σ} {a : α} {e : ε}
    (hx : x s = .ok a t) (hf : f a t = .error e s') : (x >>= f) s = .error e s' := by
  show EStateM.bind x f s = _
  rw [EStateM.bind, hx]
  exact hf

/-- A step that fails has no steps behind it. -/
theorem bind_eq_error_of_error {ε σ α β : Type} {x : EStateM ε σ α} {f : α → EStateM ε σ β} {s s' : σ} {e : ε}
    (hx : x s = .error e s') : (x >>= f) s = .error e s' := by
  show EStateM.bind x f s = _
  rw [EStateM.bind, hx]

theorem discard_eq_error {ε σ α : Type} {x : EStateM ε σ α} {s s' : σ} {e : ε} (hx : x s = .error e s') :
    (discard x : EStateM ε σ Unit) s = .error e s' := by
  show (EStateM.map (Function.const α ()) x) s = _
  rw [EStateM.map, hx]

theorem pure_eq_ok_iff {ε σ α : Type} {a b : α} {s s' : σ} :
    (pure a : EStateM ε σ α) s = .ok b s' ↔ a = b ∧ s = s' := by
  show EStateM.Result.ok a s = .ok b s' ↔ _
  simp

theorem throw_ne_ok {ε σ α : Type} {e : ε} {s s' : σ} {b : α} :
    (throw e : EStateM ε σ α) s ≠ .ok b s' :=
  fun h => nomatch h

namespace Builder

/-- No id has been drawn twice, and all blocks stand under drawn ids. -/
structure Sound (b : Builder) : Prop where
  nodup : b.issued.Nodup
  issued_of_key : ∀ id ∈ b.arena.keys, id ∈ b.issued

theorem sound_empty (drawn : Nat) (events : Array Event) : (empty drawn events).Sound :=
  ⟨List.nodup_nil, fun _ hid => nomatch hid⟩

theorem Sound.of_events {b : Builder} (hb : b.Sound) (events : Array Event) :
    ({ b with events := events } : Builder).Sound :=
  ⟨hb.nodup, hb.issued_of_key⟩

/-- From `b` to `b'`, `count` ids have been drawn, and `blocks` have been appended.  Only a hat changes the top. -/
structure Grows (ids : IdSource) (count : Nat) (blocks : List Block) (b b' : Builder) : Prop where
  drawn : b'.drawn = b.drawn + count
  issued : b'.issued = b.issued ++ ids.span b.drawn count
  arena : b'.arena = b.arena ++ Arena.ofBlocks blocks
  openBodies : b'.openBodies = b.openBodies
  top : (∀ c ∈ blocks, c.isTop = false) → b'.top = b.top

namespace Grows

variable {ids : IdSource} {b b' b'' : Builder}

theorem refl (ids : IdSource) (b : Builder) : Grows ids 0 [] b b where
  drawn := rfl
  issued := (List.append_nil _).symm
  arena := (List.append_nil _).symm
  openBodies := rfl
  top _ := rfl

theorem trans {k l : Nat} {blocks blocks' : List Block} (h : Grows ids k blocks b b')
    (h' : Grows ids l blocks' b' b'') : Grows ids (k + l) (blocks ++ blocks') b b'' where
  drawn := by rw [h'.drawn, h.drawn, Nat.add_assoc]
  issued := by rw [h'.issued, h.issued, h.drawn, IdSource.span_add, List.append_assoc]
  arena := by rw [h'.arena, h.arena, Arena.ofBlocks_append, List.append_assoc]
  openBodies := h'.openBodies.trans h.openBodies
  top hc := (h'.top fun c hc' => hc c (List.mem_append_right _ hc')).trans
    (h.top fun c hc' => hc c (List.mem_append_left _ hc'))

theorem of_events (ids : IdSource) (b : Builder) (events : Array Event) :
    Grows ids 0 [] b { b with events := events } where
  drawn := rfl
  issued := (List.append_nil _).symm
  arena := (List.append_nil _).symm
  openBodies := rfl
  top _ := rfl

theorem keys {k : Nat} {blocks : List Block} (h : Grows ids k blocks b b') :
    b'.arena.keys = b.arena.keys ++ blocks.map Block.id := by
  rw [h.arena, Arena.keys, List.map_append]
  exact congrArg _ (Arena.keys_ofBlocks blocks)

/-- Each block that has been appended is found under its id. -/
theorem get?_of_mem {k : Nat} {blocks : List Block} (hb : b.Sound) (hb' : b'.Sound) (h : Grows ids k blocks b b')
    (hids : (blocks.map Block.id).Perm (ids.span b.drawn k)) {c : Block} (hc : c ∈ blocks) :
    b'.arena.get? c.id = some c := by
  have hnodup := hb'.nodup
  rw [h.issued, List.nodup_append] at hnodup
  have hdrawn : c.id ∈ ids.span b.drawn k := hids.mem_iff.1 (List.mem_map_of_mem hc)
  rw [h.arena, Arena.get?_append_of_not_mem_keys]
  · exact (Arena.get?_ofBlocks_eq_some_iff (hids.nodup_iff.2 hnodup.2.1)).2 ⟨hc, rfl⟩
  · exact fun hkey => hnodup.2.2 _ (hb.issued_of_key _ hkey) _ hdrawn rfl

end Grows

/-- The builder after an id has been drawn from `ids`. -/
def drawing (ids : IdSource) (b : Builder) : Builder :=
  { b with drawn := b.drawn + 1, issued := b.issued ++ [ids b.drawn] }

theorem Sound.drawing {ids : IdSource} {b : Builder} (hb : b.Sound) (hnew : ids b.drawn ∉ b.issued) :
    (b.drawing ids).Sound where
  nodup := by
    rw [Builder.drawing, List.nodup_append]
    refine ⟨hb.nodup, List.nodup_singleton _, ?_⟩
    rintro id hid _ hid' rfl
    exact hnew (List.mem_singleton.1 hid' ▸ hid)
  issued_of_key id hid := List.mem_append_left _ (hb.issued_of_key id hid)

/-- The block for which an id was drawn comes behind the blocks that were built in between. -/
theorem Grows.store {ids : IdSource} {b b' : Builder} {k : Nat} {blocks : List Block} {c : Block}
    {top : Option BlockId} (hb : b.Sound) (hnew : ids b.drawn ∉ b.issued) (hb' : b'.Sound)
    (hg : Grows ids k blocks (b.drawing ids) b')
    (hids : (blocks.map Block.id).Perm (ids.span (b.drawn + 1) k)) (hc : c.id = ids b.drawn)
    (htop : c.isTop = false → top = b'.top) :
    ({ b' with arena := b'.arena.store c, top := top } : Builder).Sound ∧
      Grows ids (k + 1) (blocks ++ [c]) b { b' with arena := b'.arena.store c, top := top } := by
  have hissued : b'.issued = b.issued ++ ids b.drawn :: ids.span (b.drawn + 1) k := by
    rw [hg.issued]
    exact List.append_assoc _ [_] _
  -- the id was drawn in front of those of `blocks`, and no id is drawn twice
  have hfresh : c.id ∉ b'.arena.keys := by
    have hnd := hb'.nodup
    rw [hissued, List.nodup_append, List.nodup_cons] at hnd
    rw [hg.keys, List.mem_append, hc, hids.mem_iff]
    rintro (hkey | hspan)
    · exact hnew (hb.issued_of_key _ hkey)
    · exact hnd.2.1.1 hspan
  have hstore : b'.arena.store c = b.arena ++ Arena.ofBlocks (blocks ++ [c]) := by
    rw [Arena.store_eq_append hfresh, hg.arena, Arena.ofBlocks_append, ← List.append_assoc]
    rfl
  constructor
  · refine ⟨hb'.nodup, fun id hid => ?_⟩
    rw [Arena.store_eq_append hfresh, Arena.keys, List.map_append] at hid
    rcases List.mem_append.1 hid with hid | hid
    · exact hb'.issued_of_key id hid
    · obtain rfl : id = c.id := by simpa [Arena.ofBlocks] using hid
      rw [hissued, hc]
      simp
  · refine ⟨?_, ?_, hstore, hg.openBodies, fun h => ?_⟩
    · rw [hg.drawn]
      show b.drawn + 1 + k = _
      omega
    · rw [hissued, IdSource.span_succ]
    · rw [htop (h c (by simp))]
      exact hg.top fun d hd => h d (List.mem_append_left _ hd)

end Builder

namespace Build

variable {ids : IdSource} {b b' : Builder}

/-! ### Single steps -/

theorem report_eq_ok {event : Event} {u : Unit} (h : report event b = .ok u b') :
    ∃ events, b' = { b with events := events } := by
  cases h
  exact ⟨_, rfl⟩

theorem drawId_eq_ok_iff {id : BlockId} : drawId ids b = .ok id b' ↔
    id = ids b.drawn ∧ ids b.drawn ∉ b.issued ∧ b' = b.drawing ids := by
  unfold drawId
  show (ite (b.issued.contains (ids b.drawn) = true) _ _ : Build BlockId) b = _ ↔ _
  by_cases hmem : ids b.drawn ∈ b.issued
  · rw [if_pos (by simpa using hmem)]
    exact ⟨fun h => (nomatch h), fun h => absurd hmem h.2.1⟩
  · rw [if_neg (by simpa using hmem)]
    show EStateM.Result.ok _ _ = EStateM.Result.ok _ _ ↔ _
    rw [EStateM.Result.ok.injEq]
    exact ⟨fun h => ⟨h.1.symm, hmem, h.2.symm⟩, fun h => ⟨h.1.symm, h.2.2.symm⟩⟩

theorem addBlock_eq_ok_iff {op : Operation} {id : BlockId} {inputs : List Input} {fields : List Field}
    {parent : Option BlockId} {u : Unit} : addBlock op id inputs fields parent b = .ok u b' ↔
      unfilled op inputs fields = [] ∧
        b' = { b with
          arena := b.arena.store (blockOf op id inputs fields parent)
          top := if op.shape = .hat then some id else b.top } := by
  unfold addBlock
  split
  · rename_i h
    show EStateM.Result.ok () _ = EStateM.Result.ok u b' ↔ _
    simp only [EStateM.Result.ok.injEq, true_and, h]
    exact ⟨fun h => h.symm, fun h => h.symm⟩
  · rename_i h
    exact ⟨fun e => absurd e throw_ne_ok, fun e => absurd e.1 h⟩

theorem has_eq_contains {α : Type} (key : α → String) (name : String) (l : List α) :
    Keyed.has key name l = (l.map key).contains name := by
  induction l with
  | nil => rfl
  | cons a l ih =>
    rw [Keyed.has, List.any_cons, List.map_cons, List.contains_cons, ← ih, Keyed.has]
    congr 1
    exact Bool.beq_comm

theorem unfilled_eq_nil_iff {op : Operation} {inputs : List Input} {fields : List Field} :
    unfilled op inputs fields = [] ↔
      op.isFilled (inputs.map Input.slot) (fields.map Field.slot) = true := by
  unfold unfilled Operation.isFilled
  simp [has_eq_contains]

end Build

/-! ### Terms -/

theorem FieldValue.emit_eq_ok {slot : String} {v : FieldValue} {b b' : Builder} {field : Field}
    (h : v.emit slot b = .ok field b') : field = v.inSlot slot ∧ ∃ events, b' = { b with events := events } := by
  match v, h with
  | .plain _, h => cases h; exact ⟨rfl, b.events, rfl⟩
  | .variableName _ (some _), h => cases h; exact ⟨rfl, b.events, rfl⟩
  | .variableName _ none, h => cases h; exact ⟨rfl, _, rfl⟩

theorem FieldValue.emit_ok (slot : String) (v : FieldValue) (b : Builder) :
    ∃ events, v.emit slot b = .ok (v.inSlot slot) { b with events := events } := by
  match v with
  | .plain _ => exact ⟨b.events, rfl⟩
  | .variableName _ (some _) => exact ⟨b.events, rfl⟩
  | .variableName _ none => exact ⟨_, rfl⟩

mutual

/-- Building a term succeeds only if the term is complete, and then appends its blocks. -/
theorem Term.emit_grows (ids : IdSource) (owner : Option BlockId) :
    (t : Term) → ∀ {b b' : Builder} {id : BlockId}, b.Sound → t.emit ids owner b = .ok id b' →
      id = ids b.drawn ∧ t.isComplete = true ∧ b'.Sound ∧
        Builder.Grows ids t.size (t.blocks ids b.drawn owner) b b'
  | .apply op arguments, b, b', id, hb, h => by
    rw [Term.emit] at h
    obtain ⟨_, _, hdraw, h⟩ := bind_eq_ok_iff.1 h
    obtain ⟨rfl, hnew, rfl⟩ := Build.drawId_eq_ok_iff.1 hdraw
    obtain ⟨⟨inputs, fields⟩, b₂, hargs, h⟩ := bind_eq_ok_iff.1 h
    obtain ⟨_, _, hadd, h⟩ := bind_eq_ok_iff.1 h
    obtain ⟨rfl, rfl⟩ := pure_eq_ok_iff.1 h
    obtain ⟨hfill, rfl⟩ := Build.addBlock_eq_ok_iff.1 hadd
    obtain ⟨rfl, rfl, hcomplete, hb₂, hg⟩ := arguments.emit_grows ids (ids b.drawn) (hb.drawing hnew) hargs
    have hfill' := Build.unfilled_eq_nil_iff.1 hfill
    rw [arguments.map_slot_inputs ids _ hcomplete, arguments.map_slot_fields] at hfill'
    obtain ⟨hsound, hgrows⟩ := @Builder.Grows.store ids _ _ _ _ (Build.blockOf op (ids b.drawn) _ _ owner)
      (if op.shape = .hat then some (ids b.drawn) else b₂.top) hb hnew hb₂ hg
      (arguments.ids_perm ids _ _) rfl (fun h => if_neg (of_decide_eq_false h))
    refine ⟨rfl, ?_, hsound, hgrows⟩
    rw [Term.isComplete, hcomplete, hfill']
    rfl
  | .noted event term, b, b', id, hb, h => by
    rw [Term.emit] at h
    obtain ⟨_, _, hreport, h⟩ := bind_eq_ok_iff.1 h
    obtain ⟨events, rfl⟩ := Build.report_eq_ok hreport
    obtain ⟨rfl, hcomplete, hb', hg⟩ := term.emit_grows ids owner (hb.of_events events) h
    have hgrows := (Builder.Grows.of_events ids b events).trans hg
    rw [Nat.zero_add] at hgrows
    exact ⟨rfl, by rwa [Term.isComplete], hb', hgrows⟩
  | .unreadable _, b, b', id, hb, h => absurd h throw_ne_ok

theorem Argument.emit_grows (ids : IdSource) (owner : BlockId) (slot : String) :
    (v : Argument) → ∀ {b b' : Builder} {input : Input}, b.Sound → v.emit ids owner slot b = .ok input b' →
      v.input? ids b.drawn slot = some input ∧ v.isComplete = true ∧ b'.Sound ∧
        Builder.Grows ids v.size (v.blocks ids b.drawn owner) b b'
  | .reference _, b, b', _, hb, h => by
    cases h
    exact ⟨rfl, rfl, hb, .refl ids b⟩
  | .shadow shadow value, b, b', _, hb, h => by
    rw [Argument.emit] at h
    obtain ⟨_, _, hadd, h⟩ := bind_eq_ok_iff.1 h
    obtain ⟨rfl, rfl⟩ := pure_eq_ok_iff.1 h
    obtain ⟨_, _, hdraw, hstore⟩ := bind_eq_ok_iff.1 hadd
    obtain ⟨rfl, hnew, rfl⟩ := Build.drawId_eq_ok_iff.1 hdraw
    cases hstore
    obtain ⟨hsound, hgrows⟩ := Builder.Grows.store (c := Build.shadowBlock shadow value (ids b.drawn) owner)
      hb hnew (hb.drawing hnew) (.refl ids _) (List.Perm.refl _) rfl (fun _ => rfl)
    exact ⟨rfl, rfl, hsound, hgrows⟩
  | .nested kind term, b, b', _, hb, h => by
    rw [Argument.emit] at h
    obtain ⟨_, _, hterm, h⟩ := bind_eq_ok_iff.1 h
    obtain ⟨rfl, rfl⟩ := pure_eq_ok_iff.1 h
    obtain ⟨rfl, hcomplete, hb', hg⟩ := term.emit_grows ids (some owner) hb hterm
    exact ⟨rfl, by rwa [Argument.isComplete], hb', hg⟩
  | .raw _, b, b', _, hb, h => by
    cases h
    exact ⟨rfl, rfl, hb, .refl ids b⟩
  | .unreadable _, b, b', _, hb, h => absurd h throw_ne_ok

theorem Arguments.emit_grows (ids : IdSource) (owner : BlockId) :
    (a : Arguments) → ∀ {b b' : Builder} {inputs : List Input} {fields : List Field}, b.Sound →
      a.emit ids owner b = .ok (inputs, fields) b' →
        inputs = a.inputs ids b.drawn ∧ fields = a.fields ∧ a.isComplete = true ∧ b'.Sound ∧
          Builder.Grows ids a.size (a.blocks ids b.drawn owner) b b'
  | .done, b, b', _, _, hb, h => by
    cases h
    exact ⟨rfl, rfl, rfl, hb, .refl ids b⟩
  | .input slot value rest, b, b', _, _, hb, h => by
    rw [Arguments.emit] at h
    obtain ⟨input, b₁, hvalue, h⟩ := bind_eq_ok_iff.1 h
    obtain ⟨⟨inputs, fields⟩, b₂, hrest, h⟩ := bind_eq_ok_iff.1 h
    cases h
    obtain ⟨hinput, hcomplete, hb₁, hg⟩ := value.emit_grows ids owner slot hb hvalue
    obtain ⟨rfl, rfl, hcomplete', hb₂, hg'⟩ := rest.emit_grows ids owner hb₁ hrest
    rw [hg.drawn] at hg' ⊢
    refine ⟨?_, rfl, ?_, hb₂, hg.trans hg'⟩
    · rw [Arguments.inputs, hinput]
      rfl
    · rw [Arguments.isComplete, hcomplete, hcomplete']
      rfl
  | .field slot value rest, b, b', _, _, hb, h => by
    rw [Arguments.emit] at h
    obtain ⟨field, b₁, hvalue, h⟩ := bind_eq_ok_iff.1 h
    obtain ⟨⟨inputs, fields⟩, b₂, hrest, h⟩ := bind_eq_ok_iff.1 h
    cases h
    obtain ⟨rfl, events, rfl⟩ := FieldValue.emit_eq_ok hvalue
    obtain ⟨rfl, rfl, hcomplete, hb₂, hg⟩ := rest.emit_grows ids owner (hb.of_events events) hrest
    have hgrows := (Builder.Grows.of_events ids b events).trans hg
    rw [Nat.zero_add] at hgrows
    exact ⟨rfl, rfl, by rwa [Arguments.isComplete], hb₂, hgrows⟩

end

/-- Building a hat makes it the top. -/
theorem Term.top_of_emit {ids : IdSource} {op : Operation} {arguments : Arguments} {owner : Option BlockId}
    {b b' : Builder} {id : BlockId} (hop : op.shape = .hat) (h : (Term.apply op arguments).emit ids owner b = .ok id b') :
    b'.top = some id := by
  rw [Term.emit] at h
  obtain ⟨_, _, -, h⟩ := bind_eq_ok_iff.1 h
  obtain ⟨_, _, -, h⟩ := bind_eq_ok_iff.1 h
  obtain ⟨_, _, hadd, h⟩ := bind_eq_ok_iff.1 h
  obtain ⟨rfl, rfl⟩ := pure_eq_ok_iff.1 h
  obtain ⟨-, rfl⟩ := Build.addBlock_eq_ok_iff.1 hadd
  exact if_pos hop

mutual

/-- Building a complete term succeeds if the ids that it takes are new. -/
theorem Term.emit_of_isComplete (ids : IdSource) (owner : Option BlockId) :
    (t : Term) → t.isComplete = true → ∀ {b : Builder}, b.Sound →
      (b.issued ++ ids.span b.drawn t.size).Nodup → ∃ id b', t.emit ids owner b = .ok id b'
  | .apply op arguments, h, b, hb, hn => by
    rw [Term.isComplete, Bool.and_eq_true] at h
    rw [Term.size, IdSource.span_succ] at hn
    have hnew : ids b.drawn ∉ b.issued := by
      intro hmem
      exact (List.nodup_append.1 hn).2.2 _ hmem _ (by simp) rfl
    have hdraw := (@Build.drawId_eq_ok_iff ids b _ _).2 ⟨rfl, hnew, rfl⟩
    obtain ⟨inputs, fields, b₂, hargs⟩ := arguments.emit_of_isComplete ids (ids b.drawn) h.1
      (hb.drawing hnew) (by simpa [Builder.drawing] using hn)
    obtain ⟨rfl, rfl, hcomplete, -, -⟩ := arguments.emit_grows ids (ids b.drawn) (hb.drawing hnew) hargs
    have hfill := h.2
    rw [← arguments.map_slot_inputs ids (b.drawing ids).drawn hcomplete, ← arguments.map_slot_fields,
      ← Build.unfilled_eq_nil_iff] at hfill
    have hadd := (@Build.addBlock_eq_ok_iff b₂ _ _ (ids b.drawn) _ _ owner ()).2
      ⟨hfill, rfl⟩
    exact ⟨ids b.drawn, _, bind_eq_ok_iff.2 ⟨_, _, hdraw,
      bind_eq_ok_iff.2 ⟨_, _, hargs, bind_eq_ok_iff.2 ⟨_, _, hadd, rfl⟩⟩⟩⟩
  | .noted event term, h, b, hb, hn => by
    rw [Term.isComplete] at h
    rw [Term.size] at hn
    obtain ⟨id, b', hterm⟩ := term.emit_of_isComplete ids owner h
      (b := { b with events := b.events.push event }) (hb.of_events _) hn
    exact ⟨id, b', bind_eq_ok_iff.2 ⟨(), _, rfl, hterm⟩⟩
  | .unreadable _, h, _, _, _ => by simp [Term.isComplete] at h

theorem Argument.emit_of_isComplete (ids : IdSource) (owner : BlockId) (slot : String) :
    (v : Argument) → v.isComplete = true → ∀ {b : Builder}, b.Sound →
      (b.issued ++ ids.span b.drawn v.size).Nodup → ∃ input b', v.emit ids owner slot b = .ok input b'
  | .reference _, _, b, _, _ => ⟨_, b, rfl⟩
  | .shadow shadow value, _, b, _, hn => by
    have hnew : ids b.drawn ∉ b.issued := by
      intro hmem
      exact (List.nodup_append.1 hn).2.2 _ hmem _ (by simp [Argument.size, IdSource.span]) rfl
    have hdraw := (@Build.drawId_eq_ok_iff ids b _ _).2 ⟨rfl, hnew, rfl⟩
    exact ⟨_, _, bind_eq_ok_iff.2 ⟨_, _, bind_eq_ok_iff.2 ⟨_, _, hdraw, rfl⟩, rfl⟩⟩
  | .nested _ term, h, b, hb, hn => by
    rw [Argument.isComplete] at h
    rw [Argument.size] at hn
    obtain ⟨id, b', hterm⟩ := term.emit_of_isComplete ids (some owner) h hb hn
    exact ⟨_, b', bind_eq_ok_iff.2 ⟨_, _, hterm, rfl⟩⟩
  | .raw _, _, b, _, _ => ⟨_, b, rfl⟩
  | .unreadable _, h, _, _, _ => by simp [Argument.isComplete] at h

theorem Arguments.emit_of_isComplete (ids : IdSource) (owner : BlockId) :
    (a : Arguments) → a.isComplete = true → ∀ {b : Builder}, b.Sound →
      (b.issued ++ ids.span b.drawn a.size).Nodup →
        ∃ inputs fields b', a.emit ids owner b = .ok (inputs, fields) b'
  | .done, _, b, _, _ => ⟨[], [], b, rfl⟩
  | .input slot value rest, h, b, hb, hn => by
    rw [Arguments.isComplete, Bool.and_eq_true] at h
    rw [Arguments.size, IdSource.span_add, ← List.append_assoc] at hn
    obtain ⟨input, b₁, hvalue⟩ := value.emit_of_isComplete ids owner slot h.1 hb (List.nodup_append.1 hn).1
    obtain ⟨-, -, hb₁, hg⟩ := value.emit_grows ids owner slot hb hvalue
    obtain ⟨inputs, fields, b₂, hrest⟩ := rest.emit_of_isComplete ids owner h.2 hb₁
      (by rwa [hg.issued, hg.drawn])
    exact ⟨_, _, b₂, bind_eq_ok_iff.2 ⟨_, _, hvalue, bind_eq_ok_iff.2 ⟨_, _, hrest, rfl⟩⟩⟩
  | .field slot value rest, h, b, hb, hn => by
    rw [Arguments.isComplete] at h
    rw [Arguments.size] at hn
    obtain ⟨events, hvalue⟩ := value.emit_ok slot b
    obtain ⟨inputs, fields, b₂, hrest⟩ := rest.emit_of_isComplete ids owner h (hb.of_events events) hn
    exact ⟨_, _, b₂, bind_eq_ok_iff.2 ⟨_, _, hvalue, bind_eq_ok_iff.2 ⟨_, _, hrest, rfl⟩⟩⟩

end

/-! ### What is found after building -/

/-- Building a complete term appends its blocks, each of which is then found under its id. -/
theorem Term.exists_emit (ids : IdSource) (owner : Option BlockId) {t : Term} (ht : t.isComplete = true)
    {b : Builder} (hb : b.Sound) (hn : (b.issued ++ ids.span b.drawn t.size).Nodup) :
    ∃ b', t.emit ids owner b = .ok (ids b.drawn) b' ∧ Builder.Grows ids t.size (t.blocks ids b.drawn owner) b b' ∧
      ∀ c ∈ t.blocks ids b.drawn owner, b'.arena.get? c.id = some c := by
  obtain ⟨id, b', hemit⟩ := t.emit_of_isComplete ids owner ht hb hn
  obtain ⟨rfl, -, hb', hgrows⟩ := t.emit_grows ids owner hb hemit
  exact ⟨b', hemit, hgrows, fun c hc => hgrows.get?_of_mem hb hb' (t.ids_perm ids _ owner) hc⟩

/-- Building a complete argument appends its blocks, each of which is then found under its id. -/
theorem Argument.exists_emit (ids : IdSource) (owner : BlockId) (slot : String) {v : Argument}
    (hv : v.isComplete = true) {b : Builder} (hb : b.Sound)
    (hn : (b.issued ++ ids.span b.drawn v.size).Nodup) :
    ∃ input b', v.emit ids owner slot b = .ok input b' ∧ v.input? ids b.drawn slot = some input ∧
      Builder.Grows ids v.size (v.blocks ids b.drawn owner) b b' ∧
        ∀ c ∈ v.blocks ids b.drawn owner, b'.arena.get? c.id = some c := by
  obtain ⟨input, b', hemit⟩ := v.emit_of_isComplete ids owner slot hv hb hn
  obtain ⟨hinput, -, hb', hgrows⟩ := v.emit_grows ids owner slot hb hemit
  exact ⟨input, b', hemit, hinput, hgrows, fun c hc => hgrows.get?_of_mem hb hb' (v.ids_perm ids _ owner) hc⟩

section Found

variable {op : Operation} {arguments : Arguments} {slot slot' : String} {v v' : Argument} {arena : Arena}
  {ids : IdSource} {n : Nat} {owner : Option BlockId}

/-- Where the blocks of a term are found, there are those of its arguments and its own one. -/
theorem Term.found_of_apply
    (h : ∀ c ∈ (Term.apply op arguments).blocks ids n owner, arena.get? c.id = some c) :
    (∀ c ∈ arguments.blocks ids (n + 1) (ids n), arena.get? c.id = some c) ∧
      arena.get? (ids n) =
        some (Build.blockOf op (ids n) (arguments.inputs ids (n + 1)) arguments.fields owner) := by
  rw [Term.blocks] at h
  obtain ⟨harguments, hroot⟩ := List.forall_mem_append.1 h
  exact ⟨harguments, hroot _ (List.mem_singleton.2 rfl)⟩

theorem Term.found_of_single
    (h : ∀ c ∈ (Term.apply op (.input slot v .done)).blocks ids n owner, arena.get? c.id = some c) :
    (∀ c ∈ v.blocks ids (n + 1) (ids n), arena.get? c.id = some c) ∧
      ∀ input, v.input? ids (n + 1) slot = some input →
        arena.get? (ids n) = some (Build.blockOf op (ids n) [input] [] owner) := by
  obtain ⟨harguments, hroot⟩ := Term.found_of_apply h
  rw [Arguments.blocks, Arguments.blocks, List.append_nil] at harguments
  refine ⟨harguments, fun input hinput => ?_⟩
  rw [Arguments.inputs, hinput] at hroot
  exact hroot

theorem Term.found_of_pair
    (h : ∀ c ∈ (Term.apply op (.input slot v (.input slot' v' .done))).blocks ids n owner,
      arena.get? c.id = some c) :
    (∀ c ∈ v.blocks ids (n + 1) (ids n), arena.get? c.id = some c) ∧
      (∀ c ∈ v'.blocks ids (n + 1 + v.size) (ids n), arena.get? c.id = some c) ∧
        ∀ input input', v.input? ids (n + 1) slot = some input →
          v'.input? ids (n + 1 + v.size) slot' = some input' →
            arena.get? (ids n) = some (Build.blockOf op (ids n) [input, input'] [] owner) := by
  obtain ⟨harguments, hroot⟩ := Term.found_of_apply h
  rw [Arguments.blocks, Arguments.blocks, Arguments.blocks, List.append_nil] at harguments
  obtain ⟨hfirst, hsecond⟩ := List.forall_mem_append.1 harguments
  refine ⟨hfirst, hsecond, fun input input' hinput hinput' => ?_⟩
  rw [Arguments.inputs, Arguments.inputs, hinput, hinput'] at hroot
  exact hroot

end Found

end BlockScript
