import BlockScript.Proofs.Builder.Agreement
import BlockScript.Proofs.Builder.Faults
import BlockScript.Proofs.Compile.Valid
import BlockScript.Proofs.Phrase.Faults

/-!
# The limit on nesting

The limit only ever rejects sources.  A source that is not nested too deep is compiled the same under each higher
limit, and no source is nested deeper than its longest line is long (`compileSource_limit`).
-/

namespace BlockScript

variable {names : NameTable} {m m' : Int} {ids : IdSource}

/-! ### Higher limits -/

/-- Building what `i'` says does what building what `i` says does, unless `i` is nested too deep. -/
inductive Instruction.AgreesWith : Instruction → Instruction → Prop where
  | trigger {t t' : Term} (h : t.AgreesWith t') : AgreesWith (.trigger t) (.trigger t')
  | add {t t' : Term} (h : t.AgreesWith t') : AgreesWith (.add t) (.add t')
  | enter {t t' : Term} (h : t.AgreesWith t') : AgreesWith (.enter t) (.enter t')
  | otherwise : AgreesWith .otherwise .otherwise
  | close : AgreesWith .close .close
  | refuse (fault : Fault) : AgreesWith (.refuse fault) (.refuse fault)

namespace Reader

private theorem agreesWith_whole (h : m ≤ m') (shape : Shape) (t : Text) (fault : Fault) :
    (whole ⟨names, m⟩ shape t fault).AgreesWith (whole ⟨names, m'⟩ shape t fault) := by
  unfold whole
  split
  · exact agreesWith_termAt h 0 _ _
  · exact .refl _

/-- A line under a higher limit. -/
theorem agreesWith_instruction (h : m ≤ m') (line : Line) :
    (instruction ⟨names, m⟩ line).AgreesWith (instruction ⟨names, m'⟩ line) := by
  unfold instruction
  cases line.kind with
  | trigger => exact .trigger (agreesWith_whole h _ _ _)
  | forever => exact .enter (agreesWith_termAt h 0 _ _)
  | repeatTimes => exact .enter (agreesWith_termAt h 0 _ _)
  | repeatUntil => exact .enter (agreesWith_termAt h 0 _ _)
  | ifThen => exact .enter (agreesWith_termAt h 0 _ _)
  | otherwise => exact .otherwise
  | close => exact .close
  | statement => exact .add (agreesWith_whole h _ _ _)
  | finish => exact .refuse _
  | other name => exact .refuse _

end Reader

namespace Compile

theorem agreesUnless_lift {α : Type} {P : Fault → Prop} {x y : Build α} (h : AgreesUnless P x y)
    (context : Option LineContext) : AgreesUnless (P ·.fault) (lift context x) (lift context y) := by
  intro p
  rcases h p.builder with ⟨fault, b, herror, hfault⟩ | heq
  · exact .inl ⟨⟨fault, context⟩, { p with builder := b }, by rw [lift, herror], hfault⟩
  · exact .inr (by rw [lift, lift, heq])

theorem agreesUnless_perform {i i' : Instruction} (h : i.AgreesWith i') (number : Int) :
    AgreesUnless Fault.IsTooDeep (perform ids number i) (perform ids number i') := by
  cases h with
  | trigger h => exact (h ids none).discard
  | add h => exact (h ids none).bind fun _ => .refl _
  | enter h => exact (h ids none).bind fun _ => .refl _
  | otherwise => exact .refl _
  | close => exact .refl _
  | refuse fault => exact .refl _

/-- A line is compiled the same under a higher limit, unless it is nested too deep. -/
theorem agreesUnless_step (h : m ≤ m') (line : Line) :
    AgreesUnless (Fault.IsTooDeep ·.fault) (step ⟨⟨names, m⟩, ids⟩ line) (step ⟨⟨names, m'⟩, ids⟩ line) := by
  have hi := @Reader.agreesWith_instruction names _ _ h line
  refine (AgreesUnless.refl _).bind fun _ => ?_
  dsimp only
  generalize Reader.instruction ⟨names, m⟩ line = i at hi
  generalize Reader.instruction ⟨names, m'⟩ line = i' at hi
  -- All lines but a hat and a refused one are carried out alike, by the instruction that was read.
  have hbuilding : AgreesUnless (Fault.IsTooDeep ·.fault)
      (do if (← get).building then
            lift (some ⟨line.number, String.ofList line.text⟩) (perform ids line.number i)
          else lift (some ⟨line.number, String.ofList line.text⟩) (throw (outsideFault line)))
      (do if (← get).building then
            lift (some ⟨line.number, String.ofList line.text⟩) (perform ids line.number i')
          else lift (some ⟨line.number, String.ofList line.text⟩) (throw (outsideFault line))) := by
    refine (AgreesUnless.refl _).bind fun p => ?_
    split_ifs
    · exact agreesUnless_lift (agreesUnless_perform hi line.number) _
    · exact .refl _
  cases hi with
  | trigger h =>
    exact (AgreesUnless.refl _).bind fun _ => (AgreesUnless.refl _).bind fun _ =>
      (agreesUnless_lift (h ids none) _).discard
  | refuse fault => exact .refl _
  | _ => exact hbuilding

theorem agreesUnless_run (h : m ≤ m') (lines : List Line) :
    AgreesUnless (Fault.IsTooDeep ·.fault) (run ⟨⟨names, m⟩, ids⟩ lines) (run ⟨⟨names, m'⟩, ids⟩ lines) := by
  induction lines with
  | nil => exact .refl _
  | cons line lines ih =>
    unfold run
    split_ifs
    · exact .refl _
    · exact (agreesUnless_step h line).bind fun _ => ih

end Compile

/-- A source is compiled the same under a higher limit, unless it is nested too deep. -/
theorem compileSource_of_le (h : m ≤ m') (validate : Bool) (source : Text) :
    (∃ d, (compileSource ⟨⟨names, m⟩, ids⟩ validate source).result = .error d ∧ d.kind = .nestingTooDeep) ∨
      compileSource ⟨⟨names, m'⟩, ids⟩ validate source = compileSource ⟨⟨names, m⟩, ids⟩ validate source := by
  rcases @Compile.agreesUnless_run names _ _ ids h (Line.scan source) Progress.start with
    ⟨f, p, herror, hdeep⟩ | heq
  · have hlines : (compileLines ⟨⟨names, m⟩, ids⟩ (Line.scan source)).result = .error f.diagnose := by
      rw [compileLines, herror]
    refine .inl ⟨f.diagnose, ?_, hdeep⟩
    cases validate with
    | false => exact hlines
    | true =>
      show (compileLines ⟨⟨names, m⟩, ids⟩ (Line.scan source)).result.bind checked = _
      rw [hlines]
      rfl
  · refine .inr ?_
    rw [compileSource, compileSource, compileLines, compileLines, heq]

/-! ### High limits -/

namespace Build

/-- A step that never finds anything nested too deep. -/
abbrev IsShallow {α : Type} (x : Build α) : Prop :=
  FailsOnly (¬ Fault.IsTooDeep ·) x

theorem isShallow_block (id : BlockId) : IsShallow (block id) := by
  refine .bind .get fun b => ?_
  split
  · exact .pure _
  · exact .throw nofun

theorem isShallow_settle (body : OpenBody) : IsShallow (settle body) := by
  have hchildren : ∀ children : List BlockId, IsShallow (children.forM fun child => discard (block child)) := by
    intro children
    induction children with
    | nil => exact .pure _
    | cons child children ih => exact .bind (isShallow_block child).discard fun _ => ih
  unfold settle
  split
  · exact .pure _
  · exact (hchildren _).bind fun _ => .modify _

theorem isShallow_closeBody : IsShallow closeBody := by
  refine .bind .get fun b => ?_
  split
  · exact .throw nofun
  · refine .bind (.modify _) fun _ => (isShallow_block _).discard.bind fun _ => (isShallow_settle _).bind fun _ => ?_
    split
    · exact .pure _
    · exact .bind (.modify _) fun _ => .pure _

theorem isShallow_openSecondBody (op : Operation) (line : Int) : IsShallow (openSecondBody op line) := by
  refine .bind .get fun b => ?_
  split
  · exact .throw nofun
  · refine (isShallow_block _).bind fun container => ?_
    split_ifs
    · exact .bind (.modify _) fun _ => (isShallow_settle _).bind fun _ => .bind (.modify _) fun _ =>
        .bind (.modify _) fun _ => .pure _
    · exact .throw nofun

theorem isShallow_sequence : IsShallow sequence := by
  refine .bind .get fun b => ?_
  cases hsequence : b.sequence with
  | ok ids => exact .pure _
  | error fault =>
    refine .throw ?_
    unfold Builder.sequence at hsequence
    dsimp only at hsequence
    split at hsequence
    · cases hsequence
      exact nofun
    · cases hsequence

theorem isShallow_finish : IsShallow finish := by
  refine .bind .get fun b => ?_
  split
  · exact (isShallow_block _).bind fun _ => .throw nofun
  · split
    · exact .throw nofun
    · exact isShallow_sequence.bind fun _ => .bind (.modify _) fun _ => .bind .get fun _ => .bind (.modify _) fun _ =>
        .pure _

end Build

/-- A term is nested too deep only if it has such a fault. -/
theorem Term.isShallow_emit (ids : IdSource) (owner : Option BlockId) {t : Term}
    (h : ∀ fault ∈ t.faults, ¬ fault.IsTooDeep) : Build.IsShallow (t.emit ids owner) := by
  intro b fault b' herror
  have hmeets := t.meets_emit ids owner b
  rw [herror] at hmeets
  rcases hmeets with hhead | ⟨⟨id, rfl⟩, -⟩
  · exact h fault (List.mem_of_mem_head? hhead)
  · exact nofun

namespace Compile

variable {o : Options}

/-- A step that never finds anything nested too deep. -/
abbrev IsShallow {α : Type} (x : Compile α) : Prop :=
  FailsOnly (¬ Fault.IsTooDeep ·.fault) x

theorem isShallow_lift {α : Type} {x : Build α} (h : Build.IsShallow x) (context : Option LineContext) :
    IsShallow (lift context x) := by
  intro p f p' herror
  unfold lift at herror
  cases hx : x p.builder with
  | ok a b =>
    rw [hx] at herror
    cases herror
  | error fault b =>
    rw [hx] at herror
    cases herror
    exact h _ _ _ hx

theorem isShallow_finishScript (context : Option LineContext) : IsShallow (finishScript context) := by
  refine .bind .get fun p => ?_
  split_ifs
  · exact (isShallow_lift Build.isShallow_finish context).bind fun _ => .modify _
  · exact .pure _

/-- A line is nested too deep only if it has such a fault. -/
theorem isShallow_step {line : Line} (h : ∀ fault ∈ o.reader.faults line, ¬ fault.IsTooDeep) :
    IsShallow (step o line) := by
  refine .bind (isShallow_lift (.modify _) _) fun _ => ?_
  unfold Reader.faults at h
  have hbuilding : ∀ {i : Instruction}, Build.IsShallow (perform o.ids line.number i) → IsShallow
      (do if (← get).building then
            lift (some ⟨line.number, String.ofList line.text⟩) (perform o.ids line.number i)
          else lift (some ⟨line.number, String.ofList line.text⟩) (throw (outsideFault line))) := by
    intro i hi
    refine .bind .get fun p => ?_
    split_ifs
    · exact isShallow_lift hi _
    · refine isShallow_lift (.throw ?_) _
      unfold outsideFault
      split <;> exact nofun
  cases hi : o.reader.instruction line with
  | trigger hat =>
    rw [hi] at h
    exact (isShallow_finishScript _).bind fun _ => .bind (.modify _) fun _ =>
      (isShallow_lift (hat.isShallow_emit o.ids none h) _).discard
  | add term =>
    rw [hi] at h
    exact hbuilding ((term.isShallow_emit o.ids none h).bind fun _ => .modify _)
  | enter container =>
    rw [hi] at h
    exact hbuilding ((container.isShallow_emit o.ids none h).bind fun _ => .bind (.modify _) fun _ => .modify _)
  | «otherwise» => exact hbuilding (Build.isShallow_openSecondBody _ _).discard
  | close => exact hbuilding Build.isShallow_closeBody.discard
  | refuse fault =>
    rw [hi] at h
    exact isShallow_lift (.throw (h fault List.mem_cons_self)) _

theorem isShallow_run {lines : List Line}
    (h : ∀ line ∈ lines, line.kind ≠ .finish → ∀ fault ∈ o.reader.faults line, ¬ fault.IsTooDeep) :
    IsShallow (run o lines) := by
  induction lines with
  | nil => exact isShallow_lift (x := throw .outOfLines) (.throw nofun) none
  | cons line lines ih =>
    obtain ⟨hline, hlines⟩ := List.forall_mem_cons.1 h
    unfold run
    split_ifs with hfinish
    · exact (isShallow_finishScript none).bind fun _ => .bind .get fun _ => .pure _
    · exact (isShallow_step (hline hfinish)).bind fun _ => ih hlines

end Compile

/-! ### Sources -/

/-- A line is no longer than the line of the source that it is read from. -/
private theorem Line.exists_length_le {source : Text} {line : Line} (h : line ∈ significant source) :
    ∃ physical ∈ source.splitOn '\n', line.length ≤ physical.length := by
  have hne := List.length_pos_of_ne_nil (text_ne_nil_of_mem h)
  rw [significant_eq_ofPhysicals] at h
  obtain ⟨physical, hphysical, n, hline⟩ := mem_ofPhysicals h
  refine ⟨physical, hphysical, ?_⟩
  have hcontent : (Text.trim (content physical)).length ≤ physical.length := by
    calc (Text.trim (content physical)).length ≤ (content physical).length := Text.length_trim_le _
      _ ≤ (physical.dropWhile (· == byteOrderMark)).length := List.length_filter_le _ _
      _ ≤ physical.length := (List.dropWhile_sublist _).length_le
  rw [eq_ofText_of_ofRaw hline] at hne ⊢
  have hargument : ((kindOf (Text.trim (content physical))).2.getD []).length ≤
      (Text.trim (content physical)).length := by
    cases hkind : (kindOf (Text.trim (content physical))).2 with
    | none => exact Nat.zero_le _
    | some argument => exact (infix_argument hkind).length_le
  change 0 < (Text.trim (content physical)).length at hne
  show max 1 (max (Text.trim (content physical)).length
    ((kindOf (Text.trim (content physical))).2.getD []).length) ≤ physical.length
  omega

/-- A source is refused by a line of it, or by the check of its scripts. -/
private theorem cases_of_result_error {o : Options} {validate : Bool} {source : Text} {d : Diagnostic}
    (h : (compileSource o validate source).result = .error d) :
    (∃ f p, Compile.run o (Line.scan source) Progress.start = .error f p ∧ f.diagnose = d) ∨
      d.kind = .invalidGraph := by
  have hchecked : (compileLines o (Line.scan source)).result = .error d ∨ d.kind = .invalidGraph := by
    cases validate with
    | false => exact .inl h
    | true =>
      change (compileLines o (Line.scan source)).result.bind checked = .error d at h
      cases hlines : (compileLines o (Line.scan source)).result with
      | error d' =>
        rw [hlines] at h
        exact .inl h
      | ok scripts =>
        rw [hlines] at h
        change checked scripts = .error d at h
        unfold checked at h
        split at h
        · cases h
        · cases h
          exact .inr rfl
  refine hchecked.imp_left fun hlines => ?_
  unfold compileLines at hlines
  cases hrun : Compile.run o (Line.scan source) Progress.start with
  | ok scripts p =>
    rw [hrun] at hlines
    cases hlines
  | error f p =>
    rw [hrun] at hlines
    exact ⟨f, p, rfl, Except.error.inj hlines⟩

/-- A source whose lines are no longer than the limit is not nested too deep. -/
private theorem kind_ne_of_length_le {validate : Bool} {source : Text}
    (h : ∀ t ∈ source.splitOn '\n', (t.length : Int) ≤ m) {d : Diagnostic}
    (hd : (compileSource ⟨⟨names, m⟩, ids⟩ validate source).result = .error d) : d.kind ≠ .nestingTooDeep := by
  rcases cases_of_result_error hd with ⟨f, p, hrun, rfl⟩ | hkind
  · refine Compile.isShallow_run (fun line hline hfinish fault hfault hdeep => ?_) _ _ _ hrun
    obtain ⟨fin, hfin, hscan⟩ := Line.exists_scan_eq source
    -- The mark of the end stands in no line of the source, so its length bounds nothing; but it is not read either.
    have hmem : line ∈ Line.significant source := by
      rw [hscan] at hline
      exact (List.mem_append.1 hline).resolve_right fun hlast => hfinish (List.mem_singleton.1 hlast ▸ hfin)
    obtain ⟨physical, hphysical, hlength⟩ := Line.exists_length_le hmem
    have hshort := h physical hphysical
    cases Reader.ofLine_of_mem_faults hfault with
    | phrase hphrase =>
      cases hphrase with
      | nestingTooDeep hlimit =>
        change m.toNat < line.length at hlimit
        omega
      | _ => cases hdeep
    | _ => cases hdeep
  · rw [hkind]
    decide

/-- A source that is not nested too deep is compiled the same under each higher limit, and no source is nested deeper
than its longest line is long. -/
theorem compileSource_limit (names : NameTable) (ids : IdSource) (validate : Bool) (source : Text) {m m' : Int}
    (h : m ≤ m') :
    ((∀ d, (compileSource ⟨⟨names, m⟩, ids⟩ validate source).result = .error d → d.kind ≠ .nestingTooDeep) →
      compileSource ⟨⟨names, m'⟩, ids⟩ validate source = compileSource ⟨⟨names, m⟩, ids⟩ validate source) ∧
    ((∀ t ∈ source.splitOn '\n', (t.length : Int) ≤ m) →
      ∀ d, (compileSource ⟨⟨names, m⟩, ids⟩ validate source).result = .error d → d.kind ≠ .nestingTooDeep) := by
  constructor
  · intro hshallow
    exact (compileSource_of_le h validate source).resolve_left fun ⟨d, hd, hdeep⟩ => hshallow d hd hdeep
  · exact fun hlength d hd => kind_ne_of_length_le hlength hd

set_option maxRecDepth 10000 in
/-- Arithmetic under a limit as high as its line is long. -/
theorem compileSource_limit_say : (17 : Int) ≤ 32 ∧
    (∀ t ∈ "when flag clicked\nsay ((1) + (2))".toList.splitOn '\n', (t.length : Int) ≤ 17) ∧ ∃ scripts,
      (compileSource ⟨⟨⟨[]⟩, 17⟩, .default⟩ true "when flag clicked\nsay ((1) + (2))".toList).result = .ok scripts ∧
      scripts.map (·.blocks.length) = [5] ∧
      compileSource ⟨⟨⟨[]⟩, 32⟩, .default⟩ true "when flag clicked\nsay ((1) + (2))".toList =
        compileSource ⟨⟨⟨[]⟩, 17⟩, .default⟩ true "when flag clicked\nsay ((1) + (2))".toList := by
  have hlength : ∀ t ∈ "when flag clicked\nsay ((1) + (2))".toList.splitOn '\n', (t.length : Int) ≤ 17 := by
    decide +kernel
  obtain ⟨scripts, hscripts, hcount⟩ := @exists_scripts_of_map _
    (compileSource ⟨⟨⟨[]⟩, 17⟩, .default⟩ true "when flag clicked\nsay ((1) + (2))".toList)
    (List.map (·.blocks.length)) [5] (by decide +kernel)
  obtain ⟨hsame, hshallow⟩ := compileSource_limit ⟨[]⟩ .default true "when flag clicked\nsay ((1) + (2))".toList
    (show (17 : Int) ≤ 32 by decide)
  exact ⟨by decide, hlength, scripts, hscripts, hcount, hsame (hshallow hlength)⟩

end BlockScript
