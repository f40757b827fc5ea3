import BlockScript.Proofs.Compile.Acceptance
import BlockScript.Proofs.Compile.Given
import BlockScript.Proofs.Graph.Subtree
import BlockScript.Proofs.Line.Kind
import BlockScript.Proofs.Phrase.Cuts
import BlockScript.Proofs.Text.Trim
import BlockScript.Proofs.Vocabulary.Bytes
import BlockScript.Proofs.Vocabulary.Template

/-!
# Two ways to a condition

The form of `wait until <…>` takes the condition from between its angle signs, while a `repeat until …` line keeps the
signs and leaves it to the reader of conditions to remove them.  If the signs are one pair around the whole condition,
both come to the same: the blocks below both conditions are the same (`repeatUntil_of_waitUntil`).

Other conditions are read differently.  Beside a blank an angle sign is no bracket, so that `< mouse down? >` is a
condition behind `wait until` and none behind `repeat until`.
-/

namespace BlockScript

namespace Text

/-! ### Brackets around a condition -/

theorem exists_of_isWrapped_angle {t : Text} (h : isWrapped [.angle] t = true) : ∃ u, t = '<' :: (u ++ ['>']) := by
  obtain ⟨b, u, rfl, -⟩ := exists_of_isWrapped h
  obtain ⟨d, rest, hrest⟩ := List.exists_cons_of_ne_nil (l := u ++ [b.closer]) (by simp)
  have hkind : [Bracket.angle].contains b = true := by
    rw [hrest] at h
    unfold isWrapped at h
    dsimp only at h
    rw [Bracket.ofOpener?_eq_some_iff.2 rfl] at h
    simp only [Bool.and_eq_true] at h
    exact h.1.1
  obtain rfl : b = .angle := by simpa using hkind
  exact ⟨u, rfl⟩

theorem peel_trim (kinds : List Bracket) (t : Text) : peel kinds t.trim = peel kinds t := by
  rw [peel, trim_trim, ← peel]

/-- Without its pair of angle signs, a condition means the same. -/
theorem bareCondition_of_isWrapped {u : Text} (h : isWrapped [.angle] ('<' :: (u ++ ['>'])) = true) :
    bareCondition ('<' :: (u ++ ['>'])) = u.trim.bareCondition := by
  have htrimmed : IsTrimmed ('<' :: (u ++ ['>'])) := ⟨⟨_, _, rfl, by decide⟩, ⟨'<' :: u, _, rfl, by decide⟩⟩
  have hinner : inner ('<' :: (u ++ ['>'])) = u := List.dropLast_concat
  rw [bareCondition, peel, trim_eq_self htrimmed, dif_pos (isWrapped_all h), hinner, bareCondition, peel_trim]

end Text

/-- What a condition means depends only on what its brackets hold. -/
theorem Reader.conditionAt_eq_of_bareCondition {r : Reader} {depth : Int} {t t' : Text}
    (h : t.bareCondition = t'.bareCondition) : r.conditionAt depth t = r.conditionAt depth t' := by
  unfold conditionAt
  cases r.levelsAt depth with
  | zero => rfl
  | succ levels => rw [condition, condition, conditionStep, conditionStep, h]

/-! ### The command that waits -/

private def waiting : Operation :=
  .of "control_wait_until" .control .command "wait until <CONDITION>" [⟨"CONDITION", .boolean⟩]

private theorem waiting_mem : waiting ∈ Vocabulary.all :=
  List.mem_of_getElem? (i := 57) rfl

private theorem forms_waiting : waiting.forms = [Form.exactly "wait".toList ++ (.gap true ::
    (Form.exactly "until".toList ++ [.gap false, .oneOf ['<'], .shortest "CONDITION", .oneOf ['>']]))] := by
  decide +kernel

/-- No other command begins with the words. -/
private theorem reaches_waiting : ∀ op ∈ Vocabulary.all, op.shape = .command → op = waiting ∨
    ∀ form ∈ op.forms, form.reaches ("wait until".toList.map .given ++ [.anything]) = false := by
  simp only [Operation.forms_eq_ofString]
  decide +kernel

private theorem op_of_lookup_waiting {t : Text} {op : Operation} {values : Bindings}
    (h : Vocabulary.lookup [.command] ("wait until".toList ++ t) = some (op, values)) :
    op = waiting ∧ waiting.match? ("wait until".toList ++ t) = some values := by
  obtain ⟨hall, hshape, hmatch⟩ := Vocabulary.match?_of_lookup h
  rcases reaches_waiting op hall hshape with rfl | hout
  · exact ⟨rfl, hmatch⟩
  · obtain ⟨form, hform, hvalues⟩ := List.exists_of_findSome?_eq_some hmatch
    have hfits : Template.Fits ("wait until".toList.map .given ++ [.anything]) ("wait until".toList ++ t) :=
      (Template.fits_given _).append ⟨t, [], (List.append_nil t).symm, trivial, rfl⟩
    have hreaches := Form.reaches_of_match? hvalues hfits
    rw [hout form hform] at hreaches
    cases hreaches

private theorem lookup_waiting {t : Text} {values : Bindings}
    (h : waiting.match? ("wait until".toList ++ t) = some values) :
    Vocabulary.lookup [.command] ("wait until".toList ++ t) = some (waiting, values) := by
  cases hlookup : Vocabulary.lookup [.command] ("wait until".toList ++ t) with
  | none =>
    rw [Vocabulary.lookup, if_neg (List.cons_ne_nil _ _), Vocabulary.firstMatch?, List.findSome?_eq_none_iff] at hlookup
    have hnone := hlookup waiting (List.mem_filter.2 ⟨waiting_mem, rfl⟩)
    rw [h] at hnone
    cases hnone
  | some found =>
    obtain ⟨op, values'⟩ := found
    obtain ⟨rfl, hmatch⟩ := op_of_lookup_waiting hlookup
    rw [h] at hmatch
    rw [Option.some.inj hmatch]

/-- The condition is taken from between the first and the last angle sign. -/
private theorem values_of_match?_waiting {u inside : Text} {values : Bindings} (hu : ∀ c ∈ u, isBlank c = true)
    (h : waiting.match? ("wait until".toList ++ (u ++ '<' :: (inside ++ ['>']))) = some values) :
    values = [("CONDITION", inside.trim)] := by
  obtain ⟨form, hform, hvalues⟩ := List.exists_of_findSome?_eq_some h
  rw [forms_waiting] at hform
  obtain rfl := List.mem_singleton.1 hform
  obtain ⟨t₁, htext, h₁⟩ := Form.exists_of_match?_exactly hvalues
  obtain ⟨gap, t₂, _, rfl, hgap, h₂, rfl⟩ := Piece.exists_of_run (p := .gap true) h₁
  obtain ⟨t₃, rfl, h₃⟩ := Form.exists_of_match?_exactly h₂
  obtain ⟨gap', t₄, _, rfl, hgap', h₄, rfl⟩ := Piece.exists_of_run (p := .gap false) h₃
  obtain ⟨_, t₅, _, rfl, ⟨c, hc, rfl⟩, h₅, rfl⟩ := Piece.exists_of_run (p := .oneOf ['<']) h₄
  obtain ⟨w, t₆, _, rfl, hw, h₆, rfl⟩ := Piece.exists_of_run (p := .shortest "CONDITION") h₅
  obtain ⟨_, t₇, _, rfl, ⟨d, hd, rfl⟩, h₇, rfl⟩ := Piece.exists_of_run (p := .oneOf ['>']) h₆
  obtain ⟨rfl, rfl⟩ : c = '<' ∧ d = '>' := ⟨List.mem_singleton.1 hc, List.mem_singleton.1 hd⟩
  obtain ⟨rfl, rfl⟩ : t₇ = [] ∧ _ = [] := by
    unfold Form.match? at h₇
    split at h₇
    · exact ⟨‹_›, (Option.some.inj h₇).symm⟩
    · cases h₇
  have hwords : "wait until".toList = "wait".toList ++ ([' '] ++ "until".toList) := by decide +kernel
  have huntil : ∀ (t : Text), ∀ e ∈ ("until".toList ++ t).head?, isBlank e = false := by
    intro t e he
    obtain rfl : 'u' = e := Option.some.inj he
    decide
  rw [hwords, List.append_assoc, List.append_assoc] at htext
  obtain ⟨-, hbehind⟩ := Text.append_blanks_inj (List.forall_mem_singleton.2 (by decide)) hgap.1 (huntil _) (huntil _)
    (List.append_cancel_left htext)
  obtain ⟨-, hcondition⟩ := Text.append_blanks_inj hu hgap'.1 (by simp; decide) (by simp; decide)
    (List.append_cancel_left hbehind)
  obtain rfl : inside = w := by simpa using hcondition
  rfl

/-- What the line that waits says, if it can be read. -/
private theorem phrase_waiting {r : Reader} {line : Line} {u inside : Text} (hu : ∀ c ∈ u, isBlank c = true)
    (hk : line.kind = .statement) (htext : line.text = "wait until".toList ++ (u ++ '<' :: (inside ++ ['>'])))
    (hr : r.isReadable line = true) :
    r.phrase line = ⟨waiting, .input "CONDITION" (.nested .boolean (r.conditionAt 1 inside.trim)) .done⟩ ∧
      (r.conditionAt 1 inside.trim).isComplete = true := by
  obtain ⟨values, hlookup⟩ := Reader.lookup_statement hk hr
  have hfound := hlookup
  rw [htext] at hfound
  obtain ⟨hop, hmatch⟩ := op_of_lookup_waiting hfound
  obtain rfl := values_of_match?_waiting hu hmatch
  rw [hop] at hlookup
  have harguments : r.argumentsAt 0 waiting [("CONDITION", inside.trim)] =
      .input "CONDITION" (.nested .boolean (r.conditionAt 1 inside.trim)) .done := by
    simp [Reader.argumentsAt, Reader.arguments, waiting, Operation.of, SlotKind.isField]
  obtain ⟨hphrase, hreadable⟩ := Reader.phrase_statement (r := r) hk hlookup
  refine ⟨hphrase.trans (congrArg _ harguments), ?_⟩
  rw [hr, Reader.termAt, harguments, Term.isComplete, eq_comm, Bool.and_eq_true] at hreadable
  simpa [Arguments.isComplete, Argument.isComplete] using hreadable.1

/-- What the line that repeats says. -/
private theorem phrase_repeating {r : Reader} {line : Line} {t : Text} (hk : line.kind = .repeatUntil)
    (hargument : line.argument = some t) :
    r.phrase line = ⟨.repeatUntil, .input "CONDITION" (.nested .boolean (r.conditionAt 1 t)) .done⟩ ∧
      r.isReadable line = (r.conditionAt 1 t).isComplete := by
  have harguments : r.argumentsAt 0 .repeatUntil [("CONDITION", t)] =
      .input "CONDITION" (.nested .boolean (r.conditionAt 1 t)) .done := by
    simp [Reader.argumentsAt, Reader.arguments, Operation.repeatUntil, Operation.of, SlotKind.isField]
  have hinstruction : r.instruction line =
      .enter (.apply .repeatUntil (.input "CONDITION" (.nested .boolean (r.conditionAt 1 t)) .done)) := by
    unfold Reader.instruction
    rw [hk]
    show Instruction.enter (r.termAt 0 .repeatUntil [("CONDITION", line.argument.getD [])]) = _
    rw [hargument, Option.getD_some, Reader.termAt, harguments]
  refine ⟨by rw [Reader.phrase, hinstruction], ?_⟩
  have hfilled : Operation.repeatUntil.isFilled ["CONDITION"] [] = true := by decide
  rw [Reader.isReadable, hinstruction]
  simp [Term.isComplete, Arguments.isComplete, Argument.isComplete, Arguments.inputNames, Arguments.fieldNames, hfilled]

/-! ### The lines of both sources -/

/-- A script that waits until a condition holds. -/
def waitSource (condition : Text) : Text :=
  whenClicked ++ '\n' :: ("wait until ".toList ++ condition)

/-- A script with a body that is repeated until a condition holds. -/
def repeatSource (condition : Text) : Text :=
  whenClicked ++ '\n' :: ("repeat until ".toList ++ condition ++ '\n' :: "end".toList)

/-- What counts of a text that stands at the end of a line: the trimmed text in front of the first newline, without
carriage returns. -/
def Text.shown (t : Text) : Text :=
  Text.trim ((t.takeWhile (· != '\n')).filter (· != '\r'))

namespace Line

/-- The first of the texts between newlines is what stands in front of the first newline. -/
private theorem exists_splitOn (t : Text) : ∃ more, t.splitOn '\n' = t.takeWhile (· != '\n') :: more := by
  induction t with
  | nil => exact ⟨[], rfl⟩
  | cons c t ih =>
    obtain ⟨more, hmore⟩ := ih
    rw [List.splitOn_cons_eq_if_modifyHead, hmore]
    by_cases hc : c = '\n'
    · exact ⟨t.takeWhile (· != '\n') :: more, by simp [hc]⟩
    · exact ⟨more, by simp [hc]⟩

private theorem splitOn_words {words t first : Text} {more : List Text} (hwords : '\n' ∉ words)
    (h : t.splitOn '\n' = first :: more) : (words ++ t).splitOn '\n' = (words ++ first) :: more := by
  induction words with
  | nil => exact h
  | cons c words ih =>
    rw [List.mem_cons, not_or] at hwords
    rw [List.cons_append, List.splitOn_cons_eq_if_modifyHead, ih hwords.2]
    simp [Ne.symm hwords.1]

/-- Behind words at the beginning of a line, blanks and what is shown of the text make the line. -/
private theorem exists_ofPhysical {t : Text} (h : t.shown.IsTrimmed) : ∃ blanks, (∀ c ∈ blanks, isBlank c = true) ∧
    '\n' ∉ blanks ++ t.shown ∧ ∀ (c : Char) (words : Text) (number : Nat),
      isBlank c = false → c ∉ ['#', '/', byteOrderMark] → '\r' ∉ c :: words →
      ofPhysical? number (c :: words ++ t.takeWhile (· != '\n')) =
        some (ofText (c :: words ++ (blanks ++ t.shown)) number 1) := by
  obtain ⟨u, v, hsplit, hu, hv⟩ := Text.exists_trim ((t.takeWhile (· != '\n')).filter (· != '\r'))
  rw [← Text.shown] at hsplit
  refine ⟨u, hu, fun hmem => ?_, fun c words number hblank hmarks hreturn => ?_⟩
  · have hfirst : '\n' ∈ (t.takeWhile (· != '\n')).filter (· != '\r') := by
      rw [hsplit, ← List.append_assoc]
      exact List.mem_append_left _ hmem
    have hne := List.all_eq_true.1 List.all_takeWhile _ (List.mem_of_mem_filter hfirst)
    cases hne
  · simp only [List.mem_cons, List.not_mem_nil, or_false, not_or] at hmarks
    have hcontent : content (c :: words ++ t.takeWhile (· != '\n')) = c :: words ++ (u ++ t.shown) ++ v := by
      have hdrop : (c :: words ++ t.takeWhile (· != '\n')).dropWhile (· == byteOrderMark) =
          c :: words ++ t.takeWhile (· != '\n') := List.dropWhile_cons_of_neg (by simpa using hmarks.2.2)
      have hwords : (c :: words).filter (· != '\r') = c :: words :=
        List.filter_eq_self.2 fun d hd => bne_iff_ne.2 fun heq => hreturn (heq ▸ hd)
      rw [content, hdrop, List.filter_append, hwords, hsplit]
      simp only [List.append_assoc]
    have htrimmed : Text.IsTrimmed (c :: words ++ (u ++ t.shown)) := by
      obtain ⟨front, d, hlast, hd⟩ := h.last
      exact ⟨⟨c, _, rfl, hblank⟩, ⟨c :: words ++ (u ++ front), d, by simp [hlast], hd⟩⟩
    have hcomment : isComment (c :: words ++ (u ++ t.shown)) = false := by
      simp [isComment, List.isPrefixOf, Ne.symm hmarks.1, Ne.symm hmarks.2.1]
    have hcolumn : (c :: words ++ (u ++ t.shown) ++ v).takeWhile isBlank = [] :=
      List.takeWhile_cons_of_neg (by simp [hblank])
    rw [ofPhysical?, hcontent, ofRaw?, Text.trim_append_blanks htrimmed hv, hcomment, hcolumn, if_neg (by simp)]
    rfl

private theorem kind_ofText (t : Text) (number column : Int) : (ofText t number column).kind = (kindOf t).1 :=
  rfl

private theorem argument_ofText (t : Text) (number column : Int) : (ofText t number column).argument = (kindOf t).2 :=
  rfl

private theorem kindOf_wait (t : Text) : kindOf ("wait until ".toList ++ t) = (.statement, none) := by
  have hstart : "wait until ".toList = 'w' :: 'a' :: "it until ".toList := by decide +kernel
  have hwords : ∀ word ∈ openingWords, ¬['w', 'a'] <+: word ∧ 2 ≤ word.length := by decide
  rw [hstart]
  refine kindOf_eq_statement (fun word hword hprefix => ?_) (by simp)
  obtain ⟨hne, hlength⟩ := hwords word hword
  exact hne (List.prefix_of_prefix_length_le ⟨_, rfl⟩ hprefix hlength)

/-- Behind the hat, both sources show a line of the same condition and then the same lines, but for an `end`. -/
private theorem exists_lines {t : Text} (h : t.shown.IsTrimmed) : ∃ blanks wait loop close rest,
    (∀ c ∈ blanks, isBlank c = true) ∧
    (wait.kind = .statement ∧ wait.text = "wait until".toList ++ (blanks ++ t.shown)) ∧
    (loop.kind = .repeatUntil ∧ loop.argument = some t.shown) ∧
    close.kind = .close ∧
    significant (waitSource t) = ofText whenClicked 1 1 :: wait :: rest ∧
    significant (repeatSource t) = ofText whenClicked 1 1 :: loop :: (rest ++ [close]) := by
  obtain ⟨blanks, hblanks, hline, hfirst⟩ := exists_ofPhysical h
  obtain ⟨more, hmore⟩ := exists_splitOn t
  have hbehind : ∀ (u : Text), significant (whenClicked ++ '\n' :: u) =
      ofText whenClicked 1 1 :: ofPhysicals 2 (u.splitOn '\n') := by
    intro u
    rw [significant_eq_ofPhysicals, List.splitOn_append_cons_self_of_not_mem (by decide)]
    rfl
  have htrim : Text.trim (blanks ++ t.shown) = t.shown := by
    rw [Text.trim_blanks_append hblanks, Text.trim_eq_self h]
  have hloop : kindOf ("repeat until ".toList ++ (blanks ++ t.shown)) = (.repeatUntil, some t.shown) := by
    have hkind := kindOf_eq_repeatUntil hline (by rw [htrim]; exact h.ne_nil)
    rwa [htrim] at hkind
  refine ⟨' ' :: blanks, ofText ("wait until ".toList ++ (blanks ++ t.shown)) 2 1,
    ofText ("repeat until ".toList ++ (blanks ++ t.shown)) 2 1, ofText "end".toList (3 + more.length : Nat) 1,
    ofPhysicals 3 more, ?_, ⟨?_, ?_⟩, ⟨?_, ?_⟩, ?_, ?_, ?_⟩
  · simpa using ⟨by decide, hblanks⟩
  · rw [kind_ofText, kindOf_wait]
  · show "wait until ".toList ++ (blanks ++ t.shown) = _
    rw [show "wait until ".toList = "wait until".toList ++ [' '] by decide +kernel, List.append_assoc]
    rfl
  · rw [kind_ofText, hloop]
  · rw [argument_ofText, hloop]
  · rw [kind_ofText]
    decide
  · have hwait := hfirst 'w' "ait until ".toList 2 (by decide) (by decide) (by decide)
    unfold waitSource
    rw [hbehind, splitOn_words (by decide) hmore, ofPhysicals, ← ofPhysical?]
    exact congrArg (fun line => _ :: (Option.toList line ++ _)) hwait
  · have hrepeat := hfirst 'r' "epeat until ".toList 2 (by decide) (by decide) (by decide)
    have hend : ofPhysicals (3 + more.length) ("end".toList.splitOn '\n') =
        [ofText "end".toList (3 + more.length : Nat) 1] := rfl
    unfold repeatSource
    rw [hbehind, List.splitOn_append_cons_self, splitOn_words (by decide) hmore, List.cons_append, ofPhysicals,
      ← ofPhysical?, ofPhysicals_append, hend]
    exact congrArg (fun line => _ :: (Option.toList line ++ _)) hrepeat

end Line

/-! ### The blocks of both scripts -/

/-- The block at which the condition of a block begins. -/
def Block.condition? (b : Block) : Option BlockId := do
  (← Keyed.get? Input.slot "CONDITION" b.inputs).target?

/-- The block below the hat of a script has the given opcode, and its condition begins at the given block. -/
def Script.Checks (s : Script) (opcode : String) (root : BlockId) : Prop :=
  ∃ hat below b, s.blocks.get? s.top = some hat ∧ hat.next = some below ∧ s.blocks.get? below = some b ∧
    b.opcode = opcode ∧ b.condition? = some root

private theorem phrase_whenClicked (r : Reader) : (r.phrase (.ofText whenClicked 1 1)).arguments = .done := by
  obtain ⟨op, values, hlookup, hslots⟩ : ∃ op values, Vocabulary.lookup [.hat] whenClicked = some (op, values) ∧
      op.slots = [] := by
    have hslots : (Vocabulary.lookup [.hat] whenClicked).map (·.1.slots) = some [] := by decide +kernel
    obtain ⟨⟨op, values⟩, hlookup, hslots⟩ := Option.map_eq_some_iff.1 hslots
    exact ⟨op, values, hlookup, hslots⟩
  rw [(@Reader.phrase_trigger r (.ofText whenClicked 1 1) op values (by decide) hlookup).1, Reader.argumentsAt, hslots]
  rfl

/-- If the first item of a script says a command with a condition, the blocks of the condition stand below it. -/
private theorem checks_of_first {r : Reader} {ids : IdSource} {hat : Line} {isTrigger : hat.kind = .trigger}
    {items : List Item} {op : Operation} {condition : Term} (item : Item) (hhat : (r.phrase hat).size = 1)
    (hphrase : r.phrase item.opener = ⟨op, .input "CONDITION" (.nested .boolean condition) .done⟩)
    (hopcode : (item.block r ids 1).opcode = op.opcode)
    (hcondition : (item.block r ids 1).condition? = some (ids 2))
    (hdistinct : (ids.span 0 ((Outline.mk hat isTrigger (item :: items)).size r)).Nodup) :
    ((Outline.mk hat isTrigger (item :: items)).script r ids 0).Checks op.opcode (ids 2) ∧
      ∀ b ∈ condition.blocks ids 2 (some (ids 1)),
        ((Outline.mk hat isTrigger (item :: items)).script r ids 0).blocks.get? b.id = some b := by
  let top := ((r.phrase hat).block ids 0).placed none (some (ids 1))
  let below := (item.block r ids 1).placed (some (ids 0)) (Item.first? ids (1 + item.size r) items)
  have hblocks : (Outline.mk hat isTrigger (item :: items)).blocks r ids 0 =
      (r.phrase hat).before ids 0 ++ top :: ((r.phrase item.opener).before ids 1 ++ below :: item.inside r ids 1 ++
        Item.chained r ids (1 + item.size r) (some (ids 1)) items) := by
    rw [Outline.blocks, hhat, Item.chained]
    rfl
  have hget {b : Block} (hb : b ∈ (Outline.mk hat isTrigger (item :: items)).blocks r ids 0) :
      ((Outline.mk hat isTrigger (item :: items)).script r ids 0).blocks.get? b.id = some b :=
    Outline.get?_script hdistinct hb
  have htop := hget (b := top) (by rw [hblocks]; simp)
  have hbelow := hget (b := below) (by rw [hblocks]; simp)
  rw [show below.id = ids 1 from item.id_block 1] at hbelow
  refine ⟨⟨top, ids 1, below, htop, rfl, hbelow, hopcode, hcondition⟩, fun b hb => hget ?_⟩
  have hbefore : b ∈ (r.phrase item.opener).before ids 1 := by
    rw [hphrase]
    simpa [Phrase.before, Arguments.blocks, Argument.blocks] using hb
  rw [hblocks]
  simp [hbefore]

private theorem condition?_blockOf {op : Operation} {id root : BlockId} {parent : Option BlockId} :
    (Build.blockOf op id [.block "CONDITION" .boolean root] [] parent).condition? = some root := by
  simp [Block.condition?, Build.blockOf, Keyed.get?, Input.slot, Input.target?]

private theorem condition?_withBody {op : Operation} {id root : BlockId} {parent first? : Option BlockId} :
    ((Build.blockOf op id [.block "CONDITION" .boolean root] [] parent).withBody Script.firstBody first?).condition? =
      some root := by
  have hslot : Script.firstBody ∉
      (Build.blockOf op id [.block "CONDITION" .boolean root] [] parent).inputs.map Input.slot := by
    simp [Build.blockOf, Input.slot, Script.firstBody]
  rw [Block.condition?, Block.inputs_withBody hslot]
  simp [Build.blockOf, Keyed.get?, Input.slot, Input.target?]

/-- A script whose second line is a statement. -/
private theorem exists_items {hat line : Line} {rest : List Line} {outline : Outline} (hk : line.kind = .statement)
    (h : outline.lines = hat :: line :: rest) : ∃ isTrigger items,
      outline = ⟨hat, isTrigger, .statement line hk :: items⟩ ∧ Item.allLines items = rest := by
  obtain ⟨hat', isTrigger, items⟩ := outline
  obtain ⟨rfl, hitems⟩ := List.cons.inj h
  cases items with
  | nil => cases hitems
  | cons item items =>
    rw [Item.allLines] at hitems
    cases item with
    | statement line' isStatement =>
      rw [Item.lines, List.singleton_append] at hitems
      obtain ⟨rfl, hrest⟩ := List.cons.inj hitems
      exact ⟨isTrigger, items, rfl, hrest⟩
    | enclosed opener opens body closer closes =>
      rw [Item.lines] at hitems
      obtain ⟨rfl, -⟩ := List.cons.inj hitems
      rw [hk] at opens
      cases opens
    | forked opener isIf body middle isElse alternative closer closes =>
      rw [Item.lines] at hitems
      obtain ⟨rfl, -⟩ := List.cons.inj hitems
      rw [hk] at isIf
      cases isIf

/-- If a condition stands in one pair of angle signs as a whole and a script that waits for it compiles, then the
script that repeats until it holds compiles as well, and the same blocks stand below both conditions. -/
theorem repeatUntil_of_waitUntil {o : Options} {validate : Bool} {condition : Text} {s : Script}
    (hwrapped : Text.isWrapped [.angle] condition.shown = true)
    (h : (compileSource o validate (waitSource condition)).result = .ok [s]) :
    ∃ s' root, (compileSource o validate (repeatSource condition)).result = .ok [s'] ∧
      s.Checks "control_wait_until" root ∧ s'.Checks "control_repeat_until" root ∧ s.AgreesBelow s' root := by
  obtain ⟨inside, hshown⟩ := Text.exists_of_isWrapped_angle hwrapped
  have htrimmed : condition.shown.IsTrimmed := by
    rw [hshown]
    exact ⟨⟨_, _, rfl, by decide⟩, ⟨'<' :: inside, _, rfl, by decide⟩⟩
  obtain ⟨blanks, wait, loop, close, rest, hblanks, ⟨hwait, htext⟩, ⟨hloop, hargument⟩, hclose, hwaiting, hrepeating⟩ :=
    Line.exists_lines htrimmed
  rw [hshown] at hwrapped htext hargument
  -- the script that waits
  obtain ⟨outlines, hlines, hscripts, hr, hdistinct⟩ := exists_outlines_of_result h
  obtain ⟨outline, rfl⟩ : ∃ outline, outlines = [outline] := by
    match outlines, hscripts with
    | [outline], _ => exact ⟨outline, rfl⟩
  obtain rfl : s = outline.script o.reader o.ids 0 := List.head_eq_of_cons_eq hscripts
  rw [hwaiting] at hr
  rw [hwaiting, Outline.allLines, List.flatMap_singleton] at hlines
  obtain ⟨isTrigger, items, rfl, hitems⟩ := exists_items hwait hlines
  obtain ⟨hwaitPhrase, hcomplete⟩ := phrase_waiting hblanks hwait htext (hr _ (by simp))
  -- the script that repeats
  have hcondition : o.reader.conditionAt 1 ('<' :: (inside ++ ['>'])) = o.reader.conditionAt 1 (Text.trim inside) :=
    Reader.conditionAt_eq_of_bareCondition (Text.bareCondition_of_isWrapped hwrapped)
  obtain ⟨hloopPhrase, hloopReadable⟩ := phrase_repeating (r := o.reader) hloop hargument
  rw [hcondition] at hloopPhrase hloopReadable
  have hopens : loop.kind.opens = true := by rw [hloop]; rfl
  let repeated : Outline := ⟨_, isTrigger, [.enclosed loop hopens items close hclose]⟩
  have hlines' : Outline.allLines [repeated] = Line.significant (repeatSource condition) := by
    rw [hrepeating, ← hitems]
    simp [repeated, Outline.allLines, Outline.lines, Item.allLines, Item.lines]
  have hr' : ∀ line ∈ Outline.allLines [repeated], o.reader.isReadable line = true := by
    rw [hlines', hrepeating]
    simp only [List.forall_mem_cons, List.forall_mem_append] at hr ⊢
    exact ⟨hr.1, hloopReadable.trans hcomplete, hr.2.2, o.reader.isReadable_close hclose, by simp⟩
  have hsize : repeated.size o.reader = (Outline.mk _ isTrigger (.statement wait hwait :: items)).size o.reader := by
    simp only [repeated, Outline.size, Item.sizes, Item.size, hloopPhrase, hwaitPhrase, Nat.add_zero]
    rfl
  have hdistinct' : Outline.Distinct o.reader o.ids 0 [repeated] := by
    rw [Outline.Distinct, hsize]
    exact hdistinct
  have hhat : (o.reader.phrase (.ofText whenClicked 1 1)).size = 1 := by rw [Phrase.size, phrase_whenClicked]; rfl
  obtain ⟨hchecks, hfound⟩ := checks_of_first (.statement wait hwait) hhat hwaitPhrase
    (by rw [Item.block, hwaitPhrase]; rfl) (by rw [Item.block, hwaitPhrase]; exact condition?_blockOf) hdistinct.1
  obtain ⟨hchecks', hfound'⟩ := checks_of_first (.enclosed loop hopens items close hclose) hhat hloopPhrase
    (by rw [Item.block, hloopPhrase, Block.opcode_withBody]; rfl)
    (by rw [Item.block, hloopPhrase]; exact condition?_withBody) hdistinct'.1
  exact ⟨_, o.ids 2, result_of_distinct validate hlines' hr' hdistinct' (List.pairwise_singleton _ _), hchecks,
    hchecks', Script.agreesBelow_of_forest (Term.forest _ _ _ _ hcomplete) hfound hfound'⟩

/-- A script that waits for a condition compiles if the line can be read. -/
private theorem exists_script_waitSource {o : Options} (hids : Function.Injective o.ids) (validate : Bool)
    {condition text : Text} {values : Bindings} (hnewline : '\n' ∉ condition)
    (hphysical : Line.ofPhysical? 2 ("wait until ".toList ++ condition) =
      some (.ofText ("wait until".toList ++ ' ' :: text) 2 1))
    (hmatch : waiting.match? ("wait until".toList ++ ' ' :: text) = some values)
    (hcomplete : (o.reader.termAt 0 waiting values).isComplete = true) :
    ∃ s, (compileSource o validate (waitSource condition)).result = .ok [s] := by
  have hk : (Line.ofText ("wait until".toList ++ ' ' :: text) 2 1).kind = .statement := by
    have hstart : "wait until ".toList = "wait until".toList ++ [' '] := by decide +kernel
    rw [Line.kind_ofText, ← List.singleton_append, ← List.append_assoc, ← hstart, Line.kindOf_wait]
  have hhat : (Line.ofText whenClicked 1 1).kind = .trigger := by decide
  have hsource : Line.significant (waitSource condition) =
      [.ofText whenClicked 1 1, .ofText ("wait until".toList ++ ' ' :: text) 2 1] := by
    have hline : '\n' ∉ "wait until ".toList ++ condition := by
      rw [List.mem_append, not_or]
      exact ⟨by decide +kernel, hnewline⟩
    unfold waitSource
    rw [Line.significant_when hline, hphysical]
    rfl
  have hlines : Outline.allLines [⟨_, hhat, [.statement _ hk]⟩] = Line.significant (waitSource condition) :=
    hsource.symm
  refine ⟨_, result_of_outlines hids validate hlines ?_⟩
  rw [hlines, hsource]
  simpa using ⟨o.reader.isReadable_whenClicked,
    (Reader.phrase_statement hk (lookup_waiting hmatch)).2.trans hcomplete⟩

/-- Between blanks, only the form of the command takes the signs around a condition for brackets. -/
theorem waitUntil_without_repeatUntil :
    Compiles ⟨⟨.default, Reader.defaultLimit⟩, .default⟩ (waitSource "< mouse down? >".toList) ∧
      ¬Compiles ⟨⟨.default, Reader.defaultLimit⟩, .default⟩ (repeatSource "< mouse down? >".toList) := by
  constructor
  · obtain ⟨s, hs⟩ := @exists_script_waitSource ⟨⟨.default, Reader.defaultLimit⟩, .default⟩
      IdSource.default_injective false "< mouse down? >".toList "< mouse down? >".toList
      [("CONDITION", "mouse down?".toList)] (by decide +kernel) rfl (by decide +kernel) (by decide +kernel)
    exact ⟨[s], hs⟩
  · rintro ⟨scripts, hscripts⟩
    have hfails : (compileSource ⟨⟨.default, Reader.defaultLimit⟩, .default⟩ false
        (repeatSource "< mouse down? >".toList)).result.toOption.isSome = false := by
      decide +kernel
    rw [hscripts] at hfails
    cases hfails

/-- A condition with another one in it, and blanks around. -/
theorem repeatUntil_of_waitUntil_not : ∃ s s' root,
    (compileSource ⟨⟨⟨[]⟩, 3⟩, .default⟩ true (waitSource " <not <mouse down?>> ".toList)).result = .ok [s] ∧
    (compileSource ⟨⟨⟨[]⟩, 3⟩, .default⟩ true (repeatSource " <not <mouse down?>> ".toList)).result = .ok [s'] ∧
    s.Checks "control_wait_until" root ∧ s'.Checks "control_repeat_until" root ∧ s.AgreesBelow s' root := by
  obtain ⟨s, hs⟩ := @exists_script_waitSource ⟨⟨⟨[]⟩, 3⟩, .default⟩ IdSource.default_injective true
    " <not <mouse down?>> ".toList " <not <mouse down?>>".toList [("CONDITION", "not <mouse down?>".toList)]
    (by decide +kernel) rfl (by decide +kernel) (by decide +kernel)
  obtain ⟨s', root, hs', hagree⟩ := repeatUntil_of_waitUntil (by decide +kernel) hs
  exact ⟨s, s', root, hs, hs', hagree⟩

end BlockScript
