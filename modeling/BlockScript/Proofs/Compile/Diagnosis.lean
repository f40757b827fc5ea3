import BlockScript.Proofs.Compile.Outcome
import BlockScript.Proofs.Phrase.Faults

/-!
# How faults are reported

With ids that are all different, a source is compiled or refused for one of five kinds of faults, and the fault is
located (`result_compileSource_cases`): at the line that is refused behind the lines in front of it, or at the line
that opened the innermost container that is never closed.
-/

namespace BlockScript

variable {r : Reader} {line : Line} {fault : Fault}

/-! ### Kinds -/

/-- The kinds of faults for which a source is refused. -/
def FaultKind.ofSources : List FaultKind :=
  [.unrecognizedLine, .unbalancedContainer, .malformedCondition, .unrecognizedTrigger, .nestingTooDeep]

/-- A fault for which a line is refused. -/
structure Fault.IsRefusal (fault : Fault) : Prop where
  kind_mem : fault.kind ∈ FaultKind.ofSources
  ownLine : fault.ownLine = none

namespace Fault.IsRefusal

theorem of_ofLine (h : fault.OfLine r line) (hline : line.kind ≠ .finish ∧ ∀ name, line.kind ≠ .other name) :
    fault.IsRefusal := by
  cases h with
  | statement => exact ⟨by simp [FaultKind.ofSources, Fault.kind], rfl⟩
  | trigger => exact ⟨by simp [FaultKind.ofSources, Fault.kind], rfl⟩
  | kind h => exact absurd h (not_or.2 ⟨hline.1, not_exists.2 hline.2⟩)
  | phrase h => cases h <;> exact ⟨by simp [FaultKind.ofSources, Fault.kind], rfl⟩

theorem of_reading {α : Type} {a : α} (h : r.reading line a = .error fault)
    (hline : line.kind ≠ .finish ∧ ∀ name, line.kind ≠ .other name) : fault.IsRefusal :=
  of_ofLine (Reader.ofLine_of_mem_faults (List.mem_of_mem_head? (Reader.reading_eq_error_iff.1 h))) hline

theorem outsideFault (line : Line) : (Compile.outsideFault line).IsRefusal := by
  unfold Compile.outsideFault
  split <;> exact ⟨by simp [FaultKind.ofSources, Fault.kind], rfl⟩

variable {d : Draft}

theorem of_fork {isElse : line.kind = .otherwise} (h : d.fork line isElse = .error fault) : fault.IsRefusal := by
  unfold Draft.fork at h
  split at h
  · cases h
    exact ⟨by simp [FaultKind.ofSources, Fault.kind], rfl⟩
  · split_ifs at h
    cases h
    exact ⟨by simp [FaultKind.ofSources, Fault.kind], rfl⟩
  · cases h
    exact ⟨by simp [FaultKind.ofSources, Fault.kind], rfl⟩

theorem of_leave {closes : line.kind = .close} (h : d.leave line closes = .error fault) : fault.IsRefusal := by
  unfold Draft.leave at h
  split at h
  · cases h
    exact ⟨by simp [FaultKind.ofSources, Fault.kind], rfl⟩
  · cases h

/-- A line below a hat is refused for one of the kinds of sources. -/
theorem of_advance (h : d.advance r line = .error fault) (htrigger : line.kind ≠ .trigger)
    (hline : line.kind ≠ .finish ∧ ∀ name, line.kind ≠ .other name) : fault.IsRefusal := by
  unfold Draft.advance at h
  split_ifs at h with isStatement opens isElse closes
  · exact of_reading h hline
  · exact of_reading h hline
  · exact of_fork h
  · exact of_leave h
  · cases hk : line.kind with
    | finish => exact absurd hk hline.1
    | other name => exact absurd hk (hline.2 name)
    | _ => simp_all [LineKind.opens]

end Fault.IsRefusal

/-- A line of a source is refused for one of the kinds of sources, if it does not end a script inside of a container. -/
theorem Sketch.isRefusal_of_advance {s : Sketch} (h : s.advance r line = .error fault)
    (hline : line.kind ≠ .finish ∧ ∀ name, line.kind ≠ .other name) :
    (line.kind = .trigger ∧ s.complete = .error fault) ∨ fault.IsRefusal := by
  by_cases isTrigger : line.kind = .trigger
  · rw [advance_trigger isTrigger] at h
    cases hs : s.complete with
    | error fault' =>
      rw [hs] at h
      exact .inl ⟨isTrigger, congrArg _ (Except.error.inj h)⟩
    | ok done =>
      rw [hs] at h
      exact .inr (.of_reading h hline)
  · obtain ⟨done, current⟩ := s
    refine .inr ?_
    cases current with
    | none =>
      rw [advance_outside isTrigger] at h
      cases h
      exact .outsideFault line
    | some d =>
      rw [advance_within isTrigger] at h
      cases hd : d.advance r line with
      | ok d' =>
        rw [hd] at h
        cases h
      | error fault' =>
        rw [hd] at h
        cases h
        exact .of_advance hd isTrigger hline

/-! ### Locations -/

namespace Compile

/-- A diagnostic is that of a line which is refused in some state: it names the line and shows its text. -/
structure Refuses (o : Options) (p : Progress) (line : Line) (d : Diagnostic) : Prop where
  step : ∃ f p', Compile.step o line p = .error f p' ∧ f.diagnose = d
  line? : d.line? = some line.number
  message : d.message = d.reason ++ s!"\nLocation: line {line.number}\nCode: {String.ofList line.text}"

/-- A diagnostic is that of a container which is open in some state and is never closed: it names the line that opened
the innermost body, and shows no text. -/
structure LeavesOpen (p : Progress) (opener : Line) (d : Diagnostic) : Prop where
  opens : opener.kind.opens = true ∨ opener.kind = .otherwise
  body : ∃ body outer block, p.builder.openBodies = body :: outer ∧ body.line = opener.number ∧
    p.builder.arena.get? body.container = some block ∧
    d.reason = s!"'{block.opcode}' opened at line {opener.number} is never closed with 'end'."
  kind : d.kind = .unbalancedContainer
  line? : d.line? = some opener.number
  message : d.message = d.reason ++ s!"\nLocation: line {opener.number}"

variable {o : Options} {p : Progress}

theorem refuses_of_step {p' : Progress} (h : Compile.step o line p = .error (line.located fault) p')
    (hfault : fault.IsRefusal) (htext : line.text ≠ []) : Refuses o p line (line.located fault).diagnose := by
  have hlocated : fault.kind.isLocated = true := by
    have hkinds : ∀ kind ∈ FaultKind.ofSources, kind.isLocated = true := by decide
    exact hkinds _ hfault.kind_mem
  have hlocation : (line.located fault).diagnose.location =
      some ⟨line.number, some (String.ofList line.text)⟩ := by
    show (if fault.kind.isLocated then Location.choose _ fault.ownLine none else none) = _
    rw [if_pos hlocated, hfault.ownLine]
    rfl
  have hcode : (String.ofList line.text).isEmpty = false := by
    rw [Bool.eq_false_iff]
    intro hempty
    exact htext (by simpa using congrArg String.toList (String.isEmpty_iff.1 hempty))
  refine ⟨⟨_, p', h, rfl⟩, ?_, ?_⟩
  · rw [Diagnostic.line?, hlocation]
    rfl
  · rw [Diagnostic.message, hlocation]
    simp [Location.suffix, hcode, String.append_assoc]

/-- An open container is never closed, whether the lines end or a `when` line comes. -/
theorem leavesOpen_of_complete {s : Sketch} (h : Sketch.Held o s p) (hs : s.complete = .error fault)
    (context : Option LineContext) : ∃ opener ∈ s.lines, LeavesOpen p opener (fault.diagnose context) := by
  obtain ⟨done, current⟩ := s
  match current, h, hs with
  | none, _, hs => cases hs
  | some ⟨hat, isTrigger, items, []⟩, _, hs => cases hs
  | some ⟨hat, isTrigger, items, frame :: outer⟩, h, hs =>
    cases hs
    obtain ⟨body, bodies, block, hbodies, hline, -, hblock, hopcode⟩ := (h.built _ rfl).exists_body
    have hmem : frame.line ∈ frame.lines := by
      cases frame <;> simp [Frame.line, Frame.lines]
    have hget := (Build.block_eq_ok_iff.1 hblock).1
    refine ⟨frame.line, ?_, ?_, ⟨body, bodies, block, hbodies, hline, hget, ?_⟩, rfl, rfl, rfl⟩
    · simp [Sketch.lines, Draft.lines, Frame.allLines, hmem]
    · cases frame with
      | first opener opens items => exact .inl opens
      | second opener isIf body middle isElse items => exact .inr isElse
    · rw [hopcode]
      rfl

end Compile

/-! ### Sources -/

variable {o : Options} {source : Text}

/-- The fault of a source that cannot be read is located. -/
theorem exists_of_read_error (hids : Function.Injective o.ids) {f : LocatedFault}
    (h : Sketch.read o.reader (Line.significant source) = .error f) :
    f.diagnose.kind ∈ FaultKind.ofSources ∧ ∃ before rest p, Line.significant source = before ++ rest ∧
      Compile.steps o before Progress.start = .ok () p ∧
      ((∃ line ∈ rest.head?, Compile.Refuses o p line f.diagnose) ∨
        ((∀ line ∈ rest.head?, line.kind = .trigger) ∧
          ∃ opener ∈ before, Compile.LeavesOpen p opener f.diagnose)) := by
  have hkinds : ∀ line ∈ Line.significant source, line.kind ≠ .finish ∧ ∀ name, line.kind ≠ .other name :=
    fun _ hline => Line.kind_ne_finish_of_mem hline
  -- What has been compiled up to some line is what has been read up to there.
  have hsteps : ∀ {before rest : List Line} {s : Sketch}, Line.significant source = before ++ rest →
      Sketch.start.advanceAll o.reader before = .ok s →
      s.lines = before ∧ ∃ p, Compile.steps o before Progress.start = .ok () p ∧ Sketch.Held o s p := by
    intro before rest s hlines hall
    have hbefore : ∀ line ∈ before, line.kind ≠ .finish ∧ ∀ name, line.kind ≠ .other name := fun line hline =>
      hkinds line (hlines ▸ List.mem_append_left rest hline)
    have hheld := Sketch.held_start.steps hids hbefore
    rw [hall] at hheld
    exact ⟨Sketch.lines_of_advanceAll hall, hheld⟩
  have hopen : ∀ {d : Diagnostic} {p : Progress} {opener : Line}, Compile.LeavesOpen p opener d →
      d.kind ∈ FaultKind.ofSources := by
    intro d p opener hleaves
    rw [hleaves.kind]
    decide
  rcases Sketch.read_eq_error_iff.1 h with hall | ⟨s, fault, hall, hs, rfl⟩
  · obtain ⟨before, line, after, s, fault, hlines, hbefore, hadvance, rfl⟩ := Sketch.exists_of_advanceAll_error hall
    obtain ⟨hslines, p, hp, hheld⟩ := hsteps hlines hbefore
    have hmem : line ∈ Line.significant source := hlines ▸ List.mem_append_right before List.mem_cons_self
    rcases Sketch.isRefusal_of_advance hadvance (hkinds line hmem) with ⟨isTrigger, hs⟩ | hrefusal
    · obtain ⟨opener, hopener, hleaves⟩ := Compile.leavesOpen_of_complete hheld hs (line.located fault).context
      refine ⟨hopen hleaves, before, line :: after, p, hlines, hp, .inr ⟨?_, opener, hslines ▸ hopener, hleaves⟩⟩
      rintro _ ⟨⟩
      exact isTrigger
    · obtain ⟨p', hstep⟩ := hheld.exists_step_error hids (hkinds line hmem) hadvance
      exact ⟨hrefusal.kind_mem, before, line :: after, p, hlines, hp,
        .inl ⟨line, rfl, Compile.refuses_of_step hstep hrefusal (Line.text_ne_nil_of_mem hmem)⟩⟩
  · obtain ⟨hslines, p, hp, hheld⟩ := hsteps (List.append_nil _).symm hall
    obtain ⟨opener, hopener, hleaves⟩ := Compile.leavesOpen_of_complete hheld hs none
    exact ⟨hopen hleaves, _, [], p, (List.append_nil _).symm, hp,
      .inr ⟨(fun _ hline => nomatch hline), opener, hslines ▸ hopener, hleaves⟩⟩

/-- A source is compiled, or it is refused for one of five kinds of faults.  The fault is that of the line behind the
lines that were compiled, or that of a container which was open behind them where its script ended. -/
theorem result_compileSource_cases (hids : Function.Injective o.ids) (validate : Bool) (source : Text) :
    (∃ scripts, (compileSource o validate source).result = .ok scripts) ∨
      ∃ d, (compileSource o validate source).result = .error d ∧ d.kind ∈ FaultKind.ofSources ∧
        ∃ before rest p, Line.significant source = before ++ rest ∧
          Compile.steps o before Progress.start = .ok () p ∧
          ((∃ line ∈ rest.head?, Compile.Refuses o p line d) ∨
            ((∀ line ∈ rest.head?, line.kind = .trigger) ∧ ∃ opener ∈ before, Compile.LeavesOpen p opener d)) := by
  cases hread : Sketch.read o.reader (Line.significant source) with
  | ok outlines => exact .inl ⟨_, result_compileSource_of_read hids validate hread⟩
  | error f =>
    exact .inr ⟨f.diagnose, result_compileSource_of_read_error hids validate hread, exists_of_read_error hids hread⟩

set_option maxRecDepth 10000 in
/-- A container whose second body is never closed. -/
theorem result_compileSource_cases_else : Function.Injective IdSource.default ∧
    (compileSource ⟨⟨⟨[]⟩, 32⟩, .default⟩ true "when flag clicked\nif <mouse down?> then\nelse\nhide".toList).result =
      .error ⟨.unbalancedContainer, "'control_if_else' opened at line 3 is never closed with 'end'.",
        some ⟨3, none⟩⟩ ∧
    ∃ before rest p,
      Line.significant "when flag clicked\nif <mouse down?> then\nelse\nhide".toList = before ++ rest ∧
      Compile.steps ⟨⟨⟨[]⟩, 32⟩, .default⟩ before Progress.start = .ok () p ∧
      ((∃ line ∈ rest.head?, Compile.Refuses ⟨⟨⟨[]⟩, 32⟩, .default⟩ p line
          ⟨.unbalancedContainer, "'control_if_else' opened at line 3 is never closed with 'end'.", some ⟨3, none⟩⟩) ∨
        ((∀ line ∈ rest.head?, line.kind = .trigger) ∧ ∃ opener ∈ before, Compile.LeavesOpen p opener
          ⟨.unbalancedContainer, "'control_if_else' opened at line 3 is never closed with 'end'.",
            some ⟨3, none⟩⟩)) := by
  have herror : (compileSource ⟨⟨⟨[]⟩, 32⟩, .default⟩ true
      "when flag clicked\nif <mouse down?> then\nelse\nhide".toList).result =
      .error ⟨.unbalancedContainer, "'control_if_else' opened at line 3 is never closed with 'end'.",
        some ⟨3, none⟩⟩ := by
    decide +kernel
  refine ⟨IdSource.default_injective, herror, ?_⟩
  rcases result_compileSource_cases (o := ⟨⟨⟨[]⟩, 32⟩, .default⟩) IdSource.default_injective true
    "when flag clicked\nif <mouse down?> then\nelse\nhide".toList with ⟨scripts, h⟩ | ⟨d, hd, -, h⟩
  · rw [herror] at h
    cases h
  · obtain rfl := Except.error.inj (herror.symm.trans hd)
    exact h

end BlockScript
