import BlockScript.Proofs.Compile.Given
import BlockScript.Proofs.Vocabulary.Unambiguous

/-!
# Senders and receivers of messages

A script that begins with `when I receive [… v]` runs when another one broadcasts the message of the same name.  The
hat keeps the name in a field of its own, a broadcast keeps it in a menu, and an entry of a menu may be stored under
another name.  So both keep the same name unless the message is called like such an entry
(`received_eq_sent_iff`): a message `edge` is sent as `_edge_`, and no hat receives it.
-/

namespace BlockScript

namespace Block

/-- The value of a field. -/
def fieldValue? (b : Block) (slot : String) : Option String :=
  (Keyed.get? Field.slot slot b.fields).map Field.value

end Block

namespace Script

/-- The message that the hat of a script waits for. -/
def received? (s : Script) : Option String := do
  let hat ← s.blocks.get? s.top
  hat.fieldValue? "BROADCAST_OPTION"

/-- The message in the menu of the broadcast that stands below the hat of a script. -/
def sent? (s : Script) : Option String := do
  let hat ← s.blocks.get? s.top
  let sender ← s.blocks.get? (← hat.next)
  let input ← Keyed.get? Input.slot "BROADCAST_INPUT" sender.inputs
  let menu ← s.blocks.get? (← input.target?)
  guard (menu.opcode = "event_broadcast_menu" && menu.shadow)
  menu.fieldValue? "BROADCAST_OPTION"

end Script

/-- A script that receives a message and sends it again; the ending is that of the broadcast. -/
def messageSource (message ending : Text) : Text :=
  "when I receive [".toList ++ message ++ " v]".toList ++
    '\n' :: ("broadcast (".toList ++ message ++ " v)".toList ++ ending)

/-- The endings of a broadcast. -/
def broadcastEndings : List Text :=
  [[], " and wait".toList]

/-! ### The two operations -/

private def receiving : Operation :=
  .of "event_whenbroadcastreceived" .event .hat "when I receive [BROADCAST_OPTION v]" [⟨"BROADCAST_OPTION", .field⟩]

private def sending (opcode ending : String) : Operation :=
  .of opcode .event .command ("broadcast (BROADCAST_INPUT v)" ++ ending) [⟨"BROADCAST_INPUT", .menu .broadcast⟩]

private theorem receiving_mem : receiving ∈ Vocabulary.all :=
  List.mem_of_getElem? (i := 3) rfl

private theorem sending_mem : sending "event_broadcastandwait" " and wait" ∈ Vocabulary.all ∧
    sending "event_broadcast" "" ∈ Vocabulary.all :=
  ⟨List.mem_of_getElem? (i := 7) rfl, List.mem_of_getElem? (i := 8) rfl⟩

private theorem filled_receiving (m : Text) :
    receiving.filled (fun _ => m) = "when I receive [".toList ++ m ++ " v]".toList := by
  have hsegments : Pattern.segments receiving.pattern.toList = [.spelled "when I receive ".toList,
      .slot ⟨.square, "BROADCAST_OPTION".toList, true⟩, .spelled []] := by decide
  have hstart : "when I receive [".toList = "when I receive ".toList ++ ['['] := by simp
  have hend : " v]".toList = [' ', 'v', ']'] := by simp
  rw [Operation.filled, Pattern.filled, hsegments, hstart, hend]
  simp [Segment.filled, Placeholder.fill, Bracket.opener, Bracket.closer]

/-- The command that broadcasts a message. -/
private structure IsSending (op : Operation) (ending : Text) : Prop where
  mem : op ∈ Vocabulary.all
  shape : op.shape = .command
  slots : op.slots = [⟨"BROADCAST_INPUT", .menu .broadcast⟩]
  opcode : op.opcode ≠ "sensing_of"
  segments : Pattern.segments op.pattern.toList = [.spelled "broadcast ".toList,
    .slot ⟨.round, "BROADCAST_INPUT".toList, true⟩, .spelled ending]

private theorem exists_isSending {ending : Text} (h : ending ∈ broadcastEndings) : ∃ op, IsSending op ending := by
  simp only [broadcastEndings, List.mem_cons, List.not_mem_nil, or_false] at h
  rcases h with rfl | rfl
  · exact ⟨_, sending_mem.2, rfl, rfl, by decide, by decide⟩
  · exact ⟨_, sending_mem.1, rfl, rfl, by decide, by decide⟩

private theorem IsSending.filled {op : Operation} {ending : Text} (h : IsSending op ending) (m : Text) :
    op.filled (fun _ => m) = "broadcast (".toList ++ m ++ " v)".toList ++ ending := by
  have hstart : "broadcast (".toList = "broadcast ".toList ++ ['('] := by simp
  have hend : " v)".toList = [' ', 'v', ')'] := by simp
  rw [Operation.filled, Pattern.filled, h.segments, hstart, hend]
  simp [Segment.filled, Placeholder.fill, Bracket.opener, Bracket.closer]

/-! ### The lines -/

variable {r : Reader} {m ending : Text}

/-- What the hat says. -/
private theorem phrase_receiving (hm : m.IsEntry) (number column : Int) :
    r.phrase (.ofText (receiving.filled fun _ => m) number column) =
        ⟨receiving, .field "BROADCAST_OPTION" (.plain (String.ofList m.dropMarker)) .done⟩ ∧
      r.isReadable (.ofText (receiving.filled fun _ => m) number column) = true ∧
      (Line.ofText (receiving.filled fun _ => m) number column).kind = .trigger := by
  have htakes : ∀ slot ∈ receiving.slots, slot.Takes m := by
    intro slot hslot
    obtain rfl := List.mem_singleton.1 hslot
    exact hm
  have hk : (Line.kindOf (receiving.filled fun _ => m)).1 = .trigger := by
    rw [Vocabulary.kindOf_filled_of_hat receiving_mem rfl htakes]
  have hlookup := @Vocabulary.lookup_filled _ (fun _ => m) receiving_mem htakes (fun h => absurd h (by decide))
  have harguments : r.argumentsAt 0 receiving [("BROADCAST_OPTION", m)] =
      .field "BROADCAST_OPTION" (.plain (String.ofList m.dropMarker)) .done := by
    simp [Reader.argumentsAt, Reader.arguments, receiving, Operation.of, SlotKind.isField, Reader.fieldValue,
      hm.bare]
  obtain ⟨hphrase, hreadable⟩ :=
    @Reader.phrase_trigger r (.ofText (receiving.filled fun _ => m) number column) _ _ hk hlookup
  refine ⟨hphrase.trans (congrArg _ harguments), hreadable.trans ?_, hk⟩
  show Term.isComplete (.apply receiving (r.argumentsAt 0 receiving [("BROADCAST_OPTION", m)])) = true
  rw [harguments]
  rfl

/-- What the broadcast says. -/
private theorem phrase_sending {op : Operation} (hop : IsSending op ending) (hm : m.IsEntry)
    (hname : r.names.lookup (String.ofList m.dropMarker) = none) (hlimit : 1 ≤ r.limit) (number column : Int) :
    r.phrase (.ofText (op.filled fun _ => m) number column) =
        ⟨op, .input "BROADCAST_INPUT" (.shadow Menu.broadcast.shadow
          (Menu.broadcast.stored (String.ofList m.dropMarker))) .done⟩ ∧
      r.isReadable (.ofText (op.filled fun _ => m) number column) = true ∧
      (Line.ofText (op.filled fun _ => m) number column).kind = .statement := by
  have htakes : ∀ slot ∈ op.slots, slot.Takes m := by
    intro slot hslot
    rw [hop.slots] at hslot
    obtain rfl := List.mem_singleton.1 hslot
    exact hm
  have hk : (Line.kindOf (op.filled fun _ => m)).1 = .statement := by
    rw [Vocabulary.kindOf_filled_of_command hop.mem hop.shape htakes]
  have hlookup := @Vocabulary.lookup_filled _ (fun _ => m) hop.mem htakes fun h => absurd h hop.opcode
  rw [hop.shape, hop.slots] at hlookup
  have hvalue : r.valueAt 1 (.menu .broadcast) m =
      .shadow Menu.broadcast.shadow (Menu.broadcast.stored (String.ofList m.dropMarker)) := by
    rw [Reader.valueAt_menu hlimit _ hm.bare, hname]
  have harguments : r.argumentsAt 0 op [("BROADCAST_INPUT", m)] = .input "BROADCAST_INPUT"
      (.shadow Menu.broadcast.shadow (Menu.broadcast.stored (String.ofList m.dropMarker))) .done := by
    simp [Reader.argumentsAt, Reader.arguments, hop.slots, SlotKind.isField, hvalue]
  obtain ⟨hphrase, hreadable⟩ :=
    @Reader.phrase_statement r (.ofText (op.filled fun _ => m) number column) _ _ hk hlookup
  refine ⟨hphrase.trans (congrArg _ harguments), hreadable.trans ?_, hk⟩
  show Term.isComplete (.apply op (r.argumentsAt 0 op [("BROADCAST_INPUT", m)])) = true
  rw [harguments]
  simp [Term.isComplete, Arguments.isComplete, Argument.isComplete, Operation.isFilled, Operation.inputSlots,
    Operation.fieldSlots, hop.slots, Arguments.inputNames, Arguments.fieldNames, SlotKind.isField]

/-! ### The script -/

private theorem significant_messageSource {op : Operation} (hop : IsSending op ending) (hm : m.IsEntry)
    (hreturn : '\r' ∉ m) (hending : ending ∈ broadcastEndings) : Line.significant (messageSource m ending) =
      [.ofText (receiving.filled fun _ => m) 1 1, .ofText (op.filled fun _ => m) 2 1] := by
  have hliterals : ∀ c ∈ ['\n', '\r'], c ∉ "when I receive [".toList ∧ c ∉ " v]".toList ∧
      c ∉ "broadcast (".toList ∧ c ∉ " v)".toList ∧ ∀ ending ∈ broadcastEndings, c ∉ ending :=
    List.forall_mem_cons.2 ⟨by decide, List.forall_mem_singleton.2 (by decide)⟩
  have hhat : ∀ c ∈ ['\n', '\r'], c ∉ m → c ∉ receiving.filled fun _ => m := by
    intro c hc hm
    obtain ⟨hstart, hend, -⟩ := hliterals c hc
    rw [filled_receiving]
    simp only [List.mem_append, not_or]
    exact ⟨⟨hstart, hm⟩, hend⟩
  have hsender : ∀ c ∈ ['\n', '\r'], c ∉ m → c ∉ op.filled fun _ => m := by
    intro c hc hm
    obtain ⟨-, -, hstart, hend, hendings⟩ := hliterals c hc
    rw [hop.filled]
    simp only [List.mem_append, not_or]
    exact ⟨⟨⟨hstart, hm⟩, hend⟩, hendings _ hending⟩
  have hsource : messageSource m ending = (receiving.filled fun _ => m) ++ '\n' :: op.filled fun _ => m := by
    unfold messageSource
    rw [filled_receiving, hop.filled]
  have hhatLine : '\n' ∉ receiving.filled fun _ => m := hhat _ List.mem_cons_self hm.oneLine
  have hsenderLine : '\n' ∉ op.filled fun _ => m := hsender _ List.mem_cons_self hm.oneLine
  have hhatReturn : '\r' ∉ receiving.filled fun _ => m := hhat _ (by simp) hreturn
  have hsenderReturn : '\r' ∉ op.filled fun _ => m := hsender _ (by simp) hreturn
  rw [hsource, Line.significant_two hhatLine hsenderLine]
  have hfirst : Line.ofPhysical? 1 (receiving.filled fun _ => m) =
      some (.ofText (receiving.filled fun _ => m) 1 1) := by
    rw [filled_receiving] at hhatReturn ⊢
    exact Line.ofPhysical?_between (by decide) (by decide) hhatReturn 1
  have hsecond : Line.ofPhysical? 2 (op.filled fun _ => m) = some (.ofText (op.filled fun _ => m) 2 1) := by
    have hstops : ∀ ending ∈ broadcastEndings, (" v)".toList ++ ending).getLast?.any (!isBlank ·) := by
      decide
    rw [hop.filled, List.append_assoc] at hsenderReturn ⊢
    exact Line.ofPhysical?_between (by decide) (hstops ending hending) hsenderReturn 2
  rw [hfirst, hsecond]
  rfl

/-- The name that the hat keeps and the name that the broadcast sends are the same exactly if the editor has no other
name for a menu entry of this name. -/
theorem received_eq_sent_iff {o : Options} (hids : Function.Injective o.ids) (hlimit : 1 ≤ o.reader.limit)
    (hm : m.IsEntry) (hreturn : '\r' ∉ m) (hending : ending ∈ broadcastEndings)
    (hname : o.reader.names.lookup (String.ofList m.dropMarker) = none) (validate : Bool) :
    ∃ script, (compileSource o validate (messageSource m ending)).result = .ok [script] ∧
      script.received? = some (String.ofList m.dropMarker) ∧
      script.sent? = some (Menu.broadcast.stored (String.ofList m.dropMarker)) ∧
      (script.received? = script.sent? ↔ String.ofList m.dropMarker ∉ Menu.storedNames.map Prod.fst) := by
  obtain ⟨op, hop⟩ := exists_isSending hending
  obtain ⟨hhat, hhatReadable, hhatKind⟩ := phrase_receiving (r := o.reader) hm 1 1
  obtain ⟨hsender, hsenderReadable, hsenderKind⟩ := phrase_sending hop hm hname hlimit 2 1
  let outline : Outline := ⟨_, hhatKind, [.statement _ hsenderKind]⟩
  have hlines : Outline.allLines [outline] = Line.significant (messageSource m ending) :=
    (significant_messageSource hop hm hreturn hending).symm
  have hr : ∀ line ∈ Outline.allLines [outline], o.reader.isReadable line = true := by
    simp [outline, Outline.allLines, Outline.lines, Item.allLines, Item.lines, hhatReadable, hsenderReadable]
  let menu : Block := Build.shadowBlock Menu.broadcast.shadow (Menu.broadcast.stored (String.ofList m.dropMarker))
    (o.ids 2) (o.ids 1)
  let sender : Block := Build.blockOf op (o.ids 1) [.block "BROADCAST_INPUT" .menu (o.ids 2)] [] (some (o.ids 0))
  let hat : Block := (Build.blockOf receiving (o.ids 0) []
    [⟨"BROADCAST_OPTION", String.ofList m.dropMarker, none⟩] none).placed none (some (o.ids 1))
  have hblocks : outline.blocks o.reader o.ids 0 = [hat, menu, sender] := by
    rw [Outline.blocks, hhat]
    simp only [outline, Item.chained, Item.opener, Item.block, Item.inside, hsender]
    rfl
  have hget {b : Block} (hb : b ∈ [hat, menu, sender]) :
      (outline.script o.reader o.ids 0).blocks.get? b.id = some b :=
    Outline.get?_script (o.ids.nodup_span hids _ _) (hblocks ▸ hb)
  have hhat : (outline.script o.reader o.ids 0).blocks.get? (o.ids 0) = some hat := hget (b := hat) (by simp)
  have hsender : (outline.script o.reader o.ids 0).blocks.get? (o.ids 1) = some sender :=
    hget (b := sender) (by simp)
  have hmenu : (outline.script o.reader o.ids 0).blocks.get? (o.ids 2) = some menu := hget (b := menu) (by simp)
  have htop : (outline.script o.reader o.ids 0).top = o.ids 0 := rfl
  have hreceived : (outline.script o.reader o.ids 0).received? = some (String.ofList m.dropMarker) := by
    simp [Script.received?, htop, hhat, hat, Block.placed, Build.blockOf, Block.fieldValue?, Keyed.get?]
  have hsent : (outline.script o.reader o.ids 0).sent? =
      some (Menu.broadcast.stored (String.ofList m.dropMarker)) := by
    simp [Script.sent?, htop, hhat, hsender, hmenu, hat, sender, menu, Block.placed, Build.blockOf,
      Build.shadowBlock, Menu.shadow, Input.slot, Input.target?, Block.fieldValue?, Keyed.get?]
  refine ⟨_, result_of_outlines hids validate hlines hr, hreceived, hsent, ?_⟩
  rw [hreceived, hsent, Option.some_inj, eq_comm]
  exact Menu.stored_eq_self_iff (by decide) _

set_option maxRecDepth 10000 in
/-- A message `edge` is sent under another name than the one that its hat waits for. -/
theorem received_ne_sent_edge : ∃ script,
    (compileSource ⟨⟨.default, Reader.defaultLimit⟩, .default⟩ true (messageSource "edge".toList [])).result =
      .ok [script] ∧ script.received? = some "edge" ∧ script.sent? = some "_edge_" ∧
      script.received? ≠ script.sent? := by
  obtain ⟨scripts, hscripts, hmessages⟩ := @exists_scripts_of_map _
    (compileSource ⟨⟨.default, Reader.defaultLimit⟩, .default⟩ true (messageSource "edge".toList []))
    (fun scripts => scripts.map fun script => (script.received?, script.sent?)) [(some "edge", some "_edge_")]
    (by decide +kernel)
  obtain ⟨script, rfl, hscript⟩ := List.map_eq_singleton_iff.1 hmessages
  obtain ⟨hreceived, hsent⟩ := Prod.mk.inj hscript
  refine ⟨script, hscripts, hreceived, hsent, ?_⟩
  rw [hreceived, hsent]
  decide

/-- A message whose name ends in the mark of a dropdown. -/
theorem received_eq_sent_mark : ∃ script,
    (compileSource ⟨⟨.default, Reader.defaultLimit⟩, .default⟩ true
      (messageSource "go v".toList " and wait".toList)).result = .ok [script] ∧
      script.received? = some "go" ∧ script.received? = script.sent? := by
  obtain ⟨script, hscript, hreceived, -, hiff⟩ :=
    @received_eq_sent_iff "go v".toList " and wait".toList ⟨⟨.default, Reader.defaultLimit⟩, .default⟩
      IdSource.default_injective (by decide) (by decide) (by decide) (by decide)
      (by decide) true
  exact ⟨script, hscript, hreceived, hiff.2 (by decide)⟩

end BlockScript
