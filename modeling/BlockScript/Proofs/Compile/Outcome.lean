import BlockScript.Proofs.Builder.Refusal
import BlockScript.Proofs.Compile.Acceptance

/-!
# How compilation ends

With ids that are all different, compilation ends as reading the lines ends: with the first fault in them, or with the
scripts that have been read, laid out one behind the other (`result_compileSource`).  Checking the scripts then finds
nothing.
-/

namespace BlockScript

variable {o : Options}

namespace Compile

/-- Compiles some lines one after the other. -/
def steps (o : Options) (lines : List Line) : Compile Unit :=
  lines.forM (step o)

theorem steps_cons (line : Line) (lines : List Line) : steps o (line :: lines) = (do
    step o line
    steps o lines) :=
  rfl

/-- Running lines is compiling them one after the other and then completing the last script. -/
theorem run_append_finish {lines : List Line} {fin : Line} (hfin : fin.kind = .finish)
    (hlines : ∀ line ∈ lines, line.kind ≠ .finish) : run o (lines ++ [fin]) = do
      steps o lines
      finishScript none
      return (← get).scripts := by
  induction lines with
  | nil =>
    rw [List.nil_append, run, if_pos hfin]
    rfl
  | cons line lines ih =>
    obtain ⟨hline, hlines⟩ := List.forall_mem_cons.1 hlines
    rw [List.cons_append, run, if_neg hline, ih hlines, steps_cons, bind_assoc]

/-- A line is refused with the fault with which the builder refuses what the line says. -/
private theorem exists_step_error {line : Line} {p : Progress} {fault : Fault} (hk : line.kind ≠ .trigger)
    (hbuilding : p.building = true)
    (hperform : ∃ b, perform o.ids line.number (o.reader.instruction line) { p.builder with
      events := p.builder.events.push (.line line.number line.kind.name line.text) } = .error fault b) :
    ∃ p', step o line p = .error (line.located fault) p' := by
  obtain ⟨b, hperform⟩ := hperform
  have hlift : ∀ {context}, lift context (perform o.ids line.number (o.reader.instruction line))
      { p with builder := { p.builder with
        events := p.builder.events.push (.line line.number line.kind.name line.text) } } =
      .error ⟨fault, context⟩ { p with builder := b } := by
    intro context
    rw [lift, hperform]
  refine ⟨{ p with builder := b }, bind_eq_error (a := ()) rfl ?_⟩
  cases hi : o.reader.instruction line with
  | trigger hat => exact absurd (kind_of_trigger hi) hk
  | refuse fault' =>
    rw [hi] at hlift
    exact hlift
  | _ =>
    rw [hi] at hlift
    refine bind_eq_error (a := _) rfl ?_
    rw [if_pos hbuilding]
    exact hlift

/-- In front of the first script only a `when` line can stand. -/
private theorem exists_step_outside {line : Line} {p : Progress} (hk : line.kind ≠ .trigger)
    (hline : line.kind ≠ .finish ∧ ∀ name, line.kind ≠ .other name) (hbuilding : p.building = false) :
    ∃ p', step o line p = .error (line.located (outsideFault line)) p' := by
  refine ⟨{ p with builder := { p.builder with
    events := p.builder.events.push (.line line.number line.kind.name line.text) } }, bind_eq_error (a := ()) rfl ?_⟩
  cases hi : o.reader.instruction line with
  | trigger hat => exact absurd (kind_of_trigger hi) hk
  | refuse fault =>
    cases hkind : line.kind with
    | finish => exact absurd hkind hline.1
    | other name => exact absurd hkind (hline.2 name)
    | _ => simp [Reader.instruction, hkind] at hi
  | _ =>
    refine bind_eq_error (a := _) rfl ?_
    rw [if_neg (by rw [hbuilding]; exact Bool.false_ne_true)]
    rfl

end Compile

namespace Sketch

theorem distinct_of_injective (hids : Function.Injective o.ids) (s : Sketch) : s.Distinct o :=
  ⟨Outline.distinct_of_injective hids 0 _, fun _ _ => o.ids.nodup_span hids _ _⟩

namespace Held

variable {s t : Sketch} {p : Progress} {line : Line} {fault : Fault}

/-- A script does not end inside of a container. -/
theorem exists_finishScript_error (h : Held o s p) (hs : s.complete = .error fault) (context : Option LineContext) :
    ∃ p', Compile.finishScript context p = .error ⟨fault, context⟩ p' := by
  obtain ⟨done, current⟩ := s
  match current, h, hs with
  | none, _, hs => cases hs
  | some ⟨hat, isTrigger, items, []⟩, _, hs => cases hs
  | some ⟨hat, isTrigger, items, frame :: outer⟩, h, hs =>
    cases hs
    refine ⟨p, bind_eq_error (a := p) rfl ?_⟩
    rw [h.building]
    refine bind_eq_error_of_error ?_
    rw [Compile.lift, (h.built _ rfl).finish_eq_error]

private theorem exists_begin_error (h : Held o s p) (hids : Function.Injective o.ids)
    (isTrigger : line.kind = .trigger) (hadvance : s.advance o.reader line = .error fault) :
    ∃ p', Compile.step o line p = .error (line.located fault) p' := by
  have hi := Reader.instruction_trigger (r := o.reader) isTrigger
  have hstep : ∀ {p'}, (do
      Compile.finishScript (some ⟨line.number, String.ofList line.text⟩)
      Compile.beginScript o.ids (some ⟨line.number, String.ofList line.text⟩)
        (o.reader.whole .hat line.text (.unknownTrigger line.text)) : Compile Unit)
        { p with builder := { p.builder with
          events := p.builder.events.push (.line line.number line.kind.name line.text) } } =
      .error (line.located fault) p' → Compile.step o line p = .error (line.located fault) p' := by
    intro p' herror
    refine bind_eq_error (a := ()) rfl ?_
    rw [hi]
    exact herror
  rw [advance_trigger isTrigger] at hadvance
  cases hs : s.complete with
  | error fault' =>
    rw [hs] at hadvance
    cases hadvance
    obtain ⟨p', hfinish⟩ := (h.of_events _).exists_finishScript_error hs _
    exact ⟨p', hstep (bind_eq_error_of_error hfinish)⟩
  | ok done =>
    rw [hs] at hadvance
    obtain ⟨p₁, hfinish, -⟩ := (h.of_events _).finishScript_of_finished (complete_eq_ok_iff.1 hs)
    have hfaults := Reader.reading_eq_error_iff.1 hadvance
    rw [Reader.faults, hi] at hfaults
    obtain ⟨b, hemit⟩ := Term.exists_emit_error hids none
      (Builder.drew_empty o.ids p₁.builder.drawn p₁.builder.events) hfaults
    refine ⟨{ p₁ with building := true, builder := b }, hstep (bind_eq_error hfinish ?_)⟩
    refine bind_eq_error (a := ()) rfl (discard_eq_error ?_)
    rw [Compile.lift, hemit]
    rfl

/-- A line is refused with the fault with which the grammar refuses it. -/
theorem exists_step_error (h : Held o s p) (hids : Function.Injective o.ids)
    (hline : line.kind ≠ .finish ∧ ∀ name, line.kind ≠ .other name)
    (hadvance : s.advance o.reader line = .error fault) :
    ∃ p', Compile.step o line p = .error (line.located fault) p' := by
  by_cases hk : line.kind = .trigger
  · exact h.exists_begin_error hids hk hadvance
  obtain ⟨done, current⟩ := s
  cases current with
  | none =>
    rw [advance_outside hk] at hadvance
    cases hadvance
    exact Compile.exists_step_outside hk hline h.building
  | some d =>
    rw [advance_within hk] at hadvance
    cases hd : d.advance o.reader line with
    | ok d' =>
      rw [hd] at hadvance
      cases hadvance
    | error fault' =>
      rw [hd] at hadvance
      cases hadvance
      exact Compile.exists_step_error hk h.building (((h.of_events _).built d rfl).exists_perform_error hids hd hk)

/-- A line is compiled as the sketch advances. -/
theorem exists_step_ok (h : Held o s p) (hids : Function.Injective o.ids)
    (hadvance : s.advance o.reader line = .ok t) : ∃ p', Compile.step o line p = .ok () p' ∧ Held o t p' := by
  obtain ⟨hstep, hr⟩ := advance_eq_ok_iff.1 hadvance
  exact h.step_of_step hstep hr (t.distinct_of_injective hids)

/-- Lines are compiled as the sketch advances. -/
theorem steps (h : Held o s p) (hids : Function.Injective o.ids) {lines : List Line}
    (hlines : ∀ line ∈ lines, line.kind ≠ .finish ∧ ∀ name, line.kind ≠ .other name) :
    match s.advanceAll o.reader lines with
    | .ok t => ∃ p', Compile.steps o lines p = .ok () p' ∧ Held o t p'
    | .error f => ∃ p', Compile.steps o lines p = .error f p' := by
  induction lines generalizing s p with
  | nil => exact ⟨p, rfl, h⟩
  | cons line lines ih =>
    obtain ⟨hline, hlines⟩ := List.forall_mem_cons.1 hlines
    rw [advanceAll_cons, Compile.steps_cons]
    cases hadvance : s.advance o.reader line with
    | error fault =>
      obtain ⟨p', hstep⟩ := h.exists_step_error hids hline hadvance
      exact ⟨p', bind_eq_error_of_error hstep⟩
    | ok t =>
      obtain ⟨p₁, hstep, hheld⟩ := h.exists_step_ok hids hadvance
      have hrest := ih hheld hlines
      show match t.advanceAll o.reader lines with
        | .ok t => _
        | .error f => _
      cases hall : t.advanceAll o.reader lines with
      | error f =>
        rw [hall] at hrest
        obtain ⟨p', hrest⟩ := hrest
        exact ⟨p', bind_eq_error hstep hrest⟩
      | ok u =>
        rw [hall] at hrest
        obtain ⟨p', hrest, hheld⟩ := hrest
        exact ⟨p', bind_eq_ok_iff.2 ⟨(), p₁, hstep, hrest⟩, hheld⟩

end Held

end Sketch

/-! ### Sources -/

namespace Compile

/-- The lines of a source run as they are read. -/
private theorem exists_run_scan (hids : Function.Injective o.ids) (source : Text) :
    match Sketch.read o.reader (Line.significant source) with
    | .ok outlines => ∃ p, run o (Line.scan source) Progress.start =
        .ok (Outline.scripts o.reader o.ids 0 outlines) p
    | .error f => ∃ p, run o (Line.scan source) Progress.start = .error f p := by
  obtain ⟨fin, hfin, hscan⟩ := Line.exists_scan_eq source
  have hkinds : ∀ line ∈ Line.significant source, line.kind ≠ .finish ∧ ∀ name, line.kind ≠ .other name :=
    fun _ hline => Line.kind_ne_finish_of_mem hline
  have hsteps := Sketch.held_start.steps hids hkinds
  rw [hscan, run_append_finish hfin fun line hline => (hkinds line hline).1, Sketch.read]
  cases hall : Sketch.start.advanceAll o.reader (Line.significant source) with
  | error f =>
    rw [hall] at hsteps
    obtain ⟨p, hsteps⟩ := hsteps
    exact ⟨p, bind_eq_error_of_error hsteps⟩
  | ok s =>
    rw [hall] at hsteps
    obtain ⟨p, hsteps, hheld⟩ := hsteps
    show match (s.complete.mapError (⟨·, none⟩) : Except LocatedFault _) with
      | .ok outlines => _
      | .error f => _
    cases hs : s.complete with
    | error fault =>
      obtain ⟨p', hfinish⟩ := hheld.exists_finishScript_error hs none
      exact ⟨p', bind_eq_error hsteps (bind_eq_error_of_error hfinish)⟩
    | ok outlines =>
      obtain ⟨p', hfinish, hheld⟩ := @Sketch.Held.finishScript_of_finished _ _ _ none hheld _
        (Sketch.complete_eq_ok_iff.1 hs)
      have hscripts : p'.scripts = Outline.scripts o.reader o.ids 0 outlines := hheld.scripts
      refine ⟨p', bind_eq_ok_iff.2 ⟨(), p, hsteps, bind_eq_ok_iff.2 ⟨(), p', hfinish, ?_⟩⟩⟩
      rw [← hscripts]
      rfl

/-- A source that cannot be read fails to run with the same fault. -/
theorem exists_run_error (hids : Function.Injective o.ids) {source : Text} {f : LocatedFault}
    (h : Sketch.read o.reader (Line.significant source) = .error f) :
    ∃ p, run o (Line.scan source) Progress.start = .error f p := by
  have hrun := exists_run_scan hids source
  rw [h] at hrun
  exact hrun

end Compile

private theorem result_compileLines_eq (hids : Function.Injective o.ids) (source : Text) :
    (compileLines o (Line.scan source)).result =
      ((Sketch.read o.reader (Line.significant source)).map (Outline.scripts o.reader o.ids 0)).mapError
        LocatedFault.diagnose := by
  cases hread : Sketch.read o.reader (Line.significant source) with
  | ok outlines =>
    have hrun := Compile.exists_run_scan hids source
    rw [hread] at hrun
    obtain ⟨p, hrun⟩ := hrun
    rw [compileLines, hrun]
    rfl
  | error f =>
    obtain ⟨p, hrun⟩ := Compile.exists_run_error hids hread
    rw [compileLines, hrun]
    rfl

namespace Outline

variable {r : Reader} {ids : IdSource}

private theorem exists_of_mem_keys {n : Nat} {o : Outline} {id : BlockId}
    (h : id ∈ (o.script r ids n).blocks.keys) : ∃ k, n ≤ k ∧ k < n + o.size r ∧ id = ids k := by
  rw [(o.keys_script_perm n).mem_iff] at h
  obtain ⟨k, hk, rfl⟩ := List.mem_map.1 h
  obtain ⟨hle, hlt⟩ := List.mem_range'_1.1 hk
  exact ⟨k, hle, hlt, rfl⟩

/-- Scripts that are laid out one behind the other have no block in common. -/
theorem pairwise_disjoint_scripts (hids : Function.Injective ids) (n : Nat) (outlines : List Outline) :
    (scripts r ids n outlines).Pairwise Validity.Disjoint := by
  induction outlines generalizing n with
  | nil => exact List.Pairwise.nil
  | cons o outlines ih =>
    refine List.Pairwise.cons (fun s hs id hid hid' => ?_) (ih _)
    obtain ⟨k, -, hk, rfl⟩ := exists_of_mem_keys hid
    obtain ⟨before, o', after, -, rfl⟩ := exists_of_mem_scripts hs
    obtain ⟨l, hl, -, hkl⟩ := exists_of_mem_keys hid'
    obtain rfl := hids hkl
    omega

end Outline

/-- Checking scripts that were laid out with ids that are all different finds nothing. -/
private theorem checked_scripts (hids : Function.Injective o.ids) {outlines : List Outline}
    (hr : ∀ line ∈ Outline.allLines outlines, o.reader.isReadable line = true) :
    checked (Outline.scripts o.reader o.ids 0 outlines) = .ok (Outline.scripts o.reader o.ids 0 outlines) := by
  have hcheck := Outline.check_scripts hr 0 (Outline.distinct_of_injective hids 0 outlines)
  rw [checked, (Validity.checkAll_eq_ok_iff hcheck).2 (Outline.pairwise_disjoint_scripts hids 0 outlines)]

/-- With ids that are all different, compilation ends as reading ends. -/
theorem result_compileSource (hids : Function.Injective o.ids) (validate : Bool) (source : Text) :
    (compileSource o validate source).result =
      ((Sketch.read o.reader (Line.significant source)).map (Outline.scripts o.reader o.ids 0)).mapError
        LocatedFault.diagnose := by
  have hlines := result_compileLines_eq hids source
  cases validate with
  | false => exact hlines
  | true =>
    show (compileLines o (Line.scan source)).result.bind checked = _
    rw [hlines]
    cases hread : Sketch.read o.reader (Line.significant source) with
    | error f => rfl
    | ok outlines =>
      rw [hread] at hlines
      obtain ⟨outlines', hallLines, hscripts, hr, -⟩ := @exists_outlines_of_result _ false _ _ hlines
      show checked _ = .ok _
      rw [hscripts]
      exact checked_scripts hids (hallLines ▸ hr)

theorem result_compileSource_of_read (hids : Function.Injective o.ids) (validate : Bool) {source : Text}
    {outlines : List Outline} (h : Sketch.read o.reader (Line.significant source) = .ok outlines) :
    (compileSource o validate source).result = .ok (Outline.scripts o.reader o.ids 0 outlines) := by
  rw [result_compileSource hids, h, Except.map, Except.mapError]

theorem result_compileSource_of_read_error (hids : Function.Injective o.ids) (validate : Bool) {source : Text}
    {f : LocatedFault} (h : Sketch.read o.reader (Line.significant source) = .error f) :
    (compileSource o validate source).result = .error f.diagnose := by
  rw [result_compileSource hids, h, Except.map, Except.mapError]

end BlockScript
