import BlockScript.Proofs.Compile.Outcome
import BlockScript.Proofs.Text.Tokens

/-!
# Sources of given lines

If the lines of a source are known as those of some scripts, and can all be read, then the source compiles to the
layout of these scripts (`result_of_outlines`).  For a line of a known operation, its phrase and whether it can be
read follow from the texts of its slots.  A single statement below a `when` line has its block below the hat
(`exists_script_of_statement`).
-/

namespace BlockScript

/-- A source whose lines are those of some scripts compiles to the layout of these scripts, if all lines can be read
and no id comes twice. -/
theorem result_of_distinct {o : Options} (validate : Bool) {source : Text} {outlines : List Outline}
    (hlines : Outline.allLines outlines = Line.significant source)
    (hr : ∀ line ∈ Outline.allLines outlines, o.reader.isReadable line = true)
    (hdistinct : Outline.Distinct o.reader o.ids 0 outlines)
    (hdisjoint : (Outline.scripts o.reader o.ids 0 outlines).Pairwise Validity.Disjoint) :
    (compileSource o validate source).result = .ok (Outline.scripts o.reader o.ids 0 outlines) := by
  obtain ⟨fin, hfin, hscan⟩ := Line.exists_scan_eq source
  have hkinds : ∀ line ∈ Outline.allLines outlines, line.kind ≠ .finish := fun line hline =>
    (Line.kind_ne_finish_of_mem (hlines ▸ hline)).1
  obtain ⟨p, hp⟩ := Compile.run_of_outlines hfin hkinds hr hdistinct
  have hcompiled : (compileLines o (Line.scan source)).result = .ok (Outline.scripts o.reader o.ids 0 outlines) := by
    rw [hscan, ← hlines, compileLines, hp]
  cases validate with
  | false => exact hcompiled
  | true =>
    show (compileLines o (Line.scan source)).result.bind checked = _
    rw [hcompiled]
    show checked _ = _
    rw [checked, (Validity.checkAll_eq_ok_iff (Outline.check_scripts hr 0 hdistinct)).2 hdisjoint]

theorem result_of_outlines {o : Options} (hids : Function.Injective o.ids) (validate : Bool) {source : Text}
    {outlines : List Outline} (hlines : Outline.allLines outlines = Line.significant source)
    (hr : ∀ line ∈ Outline.allLines outlines, o.reader.isReadable line = true) :
    (compileSource o validate source).result = .ok (Outline.scripts o.reader o.ids 0 outlines) :=
  result_of_distinct validate hlines hr (Outline.distinct_of_injective hids 0 outlines)
    (Outline.pairwise_disjoint_scripts hids 0 outlines)

/-! ### Lines -/

namespace Line

/-- A text that is trimmed, has no carriage return and is no comment makes a line as it stands. -/
theorem ofPhysical?_eq_ofText {t : Text} (ht : t.IsTrimmed) (hreturn : '\r' ∉ t) (hcomment : isComment t = false)
    (hmark : t.head? ≠ some byteOrderMark) (number : Nat) : ofPhysical? number t = some (ofText t number 1) := by
  obtain ⟨c, rest, rfl, hc⟩ := ht.first
  have hcontent : content (c :: rest) = c :: rest := by
    have hdrop : (c :: rest).dropWhile (· == byteOrderMark) = c :: rest :=
      List.dropWhile_cons_of_neg (by simpa using hmark)
    rw [content, hdrop, List.filter_eq_self]
    intro d hd
    have : d ≠ '\r' := fun heq => hreturn (heq ▸ hd)
    simpa using this
  have hcolumn : (c :: rest).takeWhile isBlank = [] := List.takeWhile_cons_of_neg (by simp [hc])
  rw [ofPhysical?, hcontent, ofRaw?, Text.trim_eq_self ht, hcomment, hcolumn, if_neg (by simp)]
  rfl

/-- A line between two given texts. -/
theorem ofPhysical?_between {start m stop : Text}
    (hstart : start.head?.any fun c => !isBlank c && ['#', '/', byteOrderMark].all (· != c))
    (hstop : stop.getLast?.any (!isBlank ·)) (hreturn : '\r' ∉ start ++ m ++ stop) (number : Nat) :
    ofPhysical? number (start ++ m ++ stop) = some (.ofText (start ++ m ++ stop) number 1) := by
  simp only [Option.any_eq_true, Bool.and_eq_true, Bool.not_eq_true', List.all_eq_true, bne_iff_ne] at hstart hstop
  obtain ⟨c, hc, hblank, hmarks⟩ := hstart
  obtain ⟨d, hd, hlast⟩ := hstop
  obtain ⟨stop, rfl⟩ := List.getLast?_eq_some_iff.1 hd
  obtain ⟨start, rfl⟩ : ∃ rest, start = c :: rest := ⟨_, List.eq_cons_of_mem_head? hc⟩
  simp only [List.forall_mem_cons, List.not_mem_nil, false_imp_iff, implies_true, and_true] at hmarks
  obtain ⟨hhash, hslash, hmark⟩ := hmarks
  refine ofPhysical?_eq_ofText ⟨⟨c, _, rfl, hblank⟩, c :: start ++ m ++ stop, d, by simp, hlast⟩ hreturn ?_ ?_
    number
  · simp [isComment, List.isPrefixOf, hhash, hslash]
  · simpa using hmark.symm

theorem significant_two {t u : Text} (ht : '\n' ∉ t) (hu : '\n' ∉ u) :
    significant (t ++ '\n' :: u) = (ofPhysical? 1 t).toList ++ (ofPhysical? 2 u).toList := by
  rw [significant_eq_ofPhysicals, List.splitOn_append_cons_self_of_not_mem ht, List.splitOn_eq_singleton hu,
    ofPhysicals, ofPhysicals, ofPhysicals, List.append_nil]
  rfl

end Line

namespace Reader

variable {r : Reader} {line : Line} {op : Operation} {values : Bindings}

/-- What a `when` line says if its text reads as a hat. -/
theorem phrase_trigger (hk : line.kind = .trigger) (hlookup : Vocabulary.lookup [.hat] line.text = some (op, values)) :
    r.phrase line = ⟨op, r.argumentsAt 0 op values⟩ ∧ r.isReadable line = (r.termAt 0 op values).isComplete := by
  have hwhole : r.whole .hat line.text (.unknownTrigger line.text) = r.termAt 0 op values := by rw [whole, hlookup]
  rw [phrase, isReadable, instruction_trigger hk, hwhole]
  exact ⟨rfl, rfl⟩

/-- What a statement says if its text reads as a command. -/
theorem phrase_statement (hk : line.kind = .statement)
    (hlookup : Vocabulary.lookup [.command] line.text = some (op, values)) :
    r.phrase line = ⟨op, r.argumentsAt 0 op values⟩ ∧ r.isReadable line = (r.termAt 0 op values).isComplete := by
  have hwhole : r.whole .command line.text (.unrecognizedLine line.text) = r.termAt 0 op values := by
    rw [whole, hlookup]
  rw [phrase, isReadable, instruction_statement hk, hwhole]
  exact ⟨rfl, rfl⟩

/-- The arguments of a line may be read if phrases may nest at all. -/
theorem exists_levelsAt_one (hlimit : 1 ≤ r.limit) : ∃ levels, r.levelsAt 1 = levels + 1 :=
  ⟨r.limit.toNat - 1, by unfold levelsAt; omega⟩

/-- In the slot of a menu stands a known name or an entry of the menu. -/
theorem valueAt_menu (hlimit : 1 ≤ r.limit) (menu : Menu) {t : Text} (ht : t.bare = t) : r.valueAt 1 (.menu menu) t =
    match r.names.lookup (String.ofList t.dropMarker) with
    | some entry => .reference entry
    | none => .shadow menu.shadow (menu.stored (String.ofList t.dropMarker)) := by
  obtain ⟨levels, hlevels⟩ := exists_levelsAt_one hlimit
  have hstep : r.valueAt 1 (.menu menu) t = match r.names.lookup (String.ofList t.bare.dropMarker) with
      | some entry => .reference entry
      | none => .shadow menu.shadow (menu.stored (String.ofList t.bare.dropMarker)) := by
    rw [valueAt, hlevels]
    rfl
  rw [hstep, ht]

end Reader

/-! ### Single statements -/

/-- A script of one statement. -/
def Outline.single (line : Line) (hk : line.kind = .statement) : Outline :=
  ⟨.ofText whenClicked 1 1, by decide, [.statement line hk]⟩

/-- The block below the hat of a script. -/
def Script.second? (s : Script) : Option Block := do
  let hat ← s.blocks.get? s.top
  s.blocks.get? (← hat.next)

/-- The block of a single statement stands below the hat. -/
theorem Outline.second?_script {r : Reader} {ids : IdSource} {n : Nat} {hat line : Line} (hhat : hat.kind = .trigger)
    (hk : line.kind = .statement) (hn : (ids.span n (size r ⟨hat, hhat, [.statement line hk]⟩)).Nodup) :
    (script r ids n ⟨hat, hhat, [.statement line hk]⟩).second? =
      some (((r.phrase line).block ids (n + (r.phrase hat).size)).placed (some (ids n)) none) := by
  have htop : ((r.phrase hat).block ids n).placed none (some (ids (n + (r.phrase hat).size))) ∈
      blocks r ids n ⟨hat, hhat, [.statement line hk]⟩ := by
    simp [blocks, Item.first?]
  have hbelow : ((r.phrase line).block ids (n + (r.phrase hat).size)).placed (some (ids n)) none ∈
      blocks r ids n ⟨hat, hhat, [.statement line hk]⟩ := by
    simp [blocks, Item.chained, Item.first?, Item.block]
  have hhat := get?_script hn htop
  have hstatement := get?_script hn hbelow
  exact Option.bind_eq_some_iff.2 ⟨_, hhat, hstatement⟩

section

variable {o : Options} {t : Text} {line : Line} (ht : '\n' ∉ t) (hline : Line.ofPhysical? 2 t = some line)
  (hk : line.kind = .statement)

include ht hline hk

theorem Outline.allLines_single : allLines [single line hk] = Line.significant (whenClicked ++ '\n' :: t) := by
  rw [Line.significant_when ht, hline]
  rfl

/-- A single statement below a `when` line has its block below the hat, and the script holds the blocks of its
arguments. -/
theorem exists_script_with_arguments (hids : Function.Injective o.ids) (hr : o.reader.isReadable line = true)
    (validate : Bool) : ∃ script n, (compileSource o validate (whenClicked ++ '\n' :: t)).result = .ok [script] ∧
      script.second? = some (((o.reader.phrase line).block o.ids n).placed (some script.top) none) ∧
      ∀ b ∈ (o.reader.phrase line).before o.ids n, script.blocks.get? b.id = some b := by
  have hreadable : ∀ line' ∈ Outline.allLines [.single line hk], o.reader.isReadable line' = true := by
    rw [Outline.allLines_single ht hline hk, Line.significant_when ht, hline]
    simpa using ⟨o.reader.isReadable_whenClicked, hr⟩
  have hresult := result_of_outlines hids validate (Outline.allLines_single ht hline hk) hreadable
  refine ⟨_, _, hresult, Outline.second?_script _ hk (o.ids.nodup_span hids _ _), fun b hb => ?_⟩
  refine Outline.get?_script (o.ids.nodup_span hids _ _) (List.mem_append_right _ (List.mem_cons_of_mem _ ?_))
  rw [Outline.single, Item.chained_cons, Item.blocks]
  exact List.mem_append_left _ (List.mem_append_left _ hb)

/-- A single statement below a `when` line has its block below the hat. -/
theorem exists_script_of_statement (hids : Function.Injective o.ids) (hr : o.reader.isReadable line = true)
    (validate : Bool) : ∃ script n, (compileSource o validate (whenClicked ++ '\n' :: t)).result = .ok [script] ∧
      script.second? = some (((o.reader.phrase line).block o.ids n).placed (some script.top) none) := by
  obtain ⟨script, n, hresult, hsecond, -⟩ := exists_script_with_arguments ht hline hk hids hr validate
  exact ⟨script, n, hresult, hsecond⟩

end

end BlockScript
