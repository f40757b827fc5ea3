import BlockScript.Compile
import BlockScript.Proofs.Builder.Faults
import BlockScript.Proofs.Layout.Draft

/-!
# Reading a source without building it

Which fault ends compilation can be told from the lines and the grammar alone.  `Sketch.advance` takes a sketch one
line further, or gives the fault of the line; `Sketch.read` reads all lines of a source.  Nothing is built on the way,
and no id is drawn.

* `Sketch.advance_eq_ok_iff`: a line takes a sketch further exactly if the grammar has a step for it and it can be
  read.
-/

namespace BlockScript

variable {r : Reader} {line : Line}

/-! ### Lines -/

/-- A fault that arises while a line is being processed. -/
def Line.located (line : Line) (fault : Fault) : LocatedFault :=
  ⟨fault, some ⟨line.number, String.ofList line.text⟩⟩

namespace Reader

/-- The faults of what a line says, in the order in which building meets them. -/
def faults (r : Reader) (line : Line) : List Fault :=
  match r.instruction line with
  | .trigger hat => hat.faults
  | .add term => term.faults
  | .enter container => container.faults
  | .otherwise => []
  | .close => []
  | .refuse fault => [fault]

theorem faults_eq_nil_iff : r.faults line = [] ↔ r.isReadable line = true := by
  unfold faults isReadable
  cases r.instruction line with
  | trigger hat => exact hat.faults_eq_nil_iff
  | add term => exact term.faults_eq_nil_iff
  | enter container => exact container.faults_eq_nil_iff
  | «otherwise» => exact iff_of_true rfl rfl
  | close => exact iff_of_true rfl rfl
  | refuse fault => exact iff_of_false (List.cons_ne_nil _ _) Bool.false_ne_true

/-- What comes of a line that can be read, or else the first fault of the line. -/
def reading {α : Type} (r : Reader) (line : Line) (a : α) : Except Fault α :=
  match r.faults line with
  | [] => .ok a
  | fault :: _ => .error fault

variable {α : Type} {a b : α}

theorem reading_eq_ok_iff : r.reading line a = .ok b ↔ r.isReadable line = true ∧ a = b := by
  rw [← faults_eq_nil_iff]
  unfold reading
  split
  · rename_i h
    simp [h]
  · rename_i h
    simp [h]

theorem reading_eq_error_iff {fault : Fault} :
    r.reading line a = .error fault ↔ (r.faults line).head? = some fault := by
  unfold reading
  split
  · rename_i h
    simp [h]
  · rename_i h
    simp [h]

end Reader

/-! ### Drafts -/

/-- The operation that an open container carries out. -/
def Frame.opcode : Frame → String
  | first opener _ _ => opener.kind.container.opcode
  | second _ _ _ _ _ _ => Operation.ifElse.opcode

namespace Draft

/-- The draft in which the second body of the innermost container has been opened, which must be an `if` that has
none. -/
def fork (line : Line) (isElse : line.kind = .otherwise) (d : Draft) : Except Fault Draft :=
  match d.frames with
  | [] => .error .elseWithoutIf
  | .first opener opens body :: outer =>
    if isIf : opener.kind = .ifThen then .ok { d with frames := .second opener isIf body line isElse [] :: outer }
    else .error (.elseInside (Frame.first opener opens body).opcode)
  | frame :: _ => .error (.elseInside frame.opcode)

/-- The draft in which the innermost container has been closed. -/
def leave (line : Line) (closes : line.kind = .close) (d : Draft) : Except Fault Draft :=
  match d.frames with
  | [] => .error .endWithoutContainer
  | frame :: outer => .ok (push (frame.closed line closes) { d with frames := outer })

/-- The draft behind a line below the hat, or the fault of the line. -/
def advance (r : Reader) (d : Draft) (line : Line) : Except Fault Draft :=
  if isStatement : line.kind = .statement then r.reading line (d.push (.statement line isStatement))
  else if opens : line.kind.opens = true then r.reading line (d.enter line opens)
  else if isElse : line.kind = .otherwise then d.fork line isElse
  else if closes : line.kind = .close then d.leave line closes
  else .error (.missingKey line.kind.name)

variable {d d' : Draft}

theorem advance_statement (isStatement : line.kind = .statement) :
    d.advance r line = r.reading line (d.push (.statement line isStatement)) :=
  dif_pos isStatement

theorem advance_opener (opens : line.kind.opens = true) : d.advance r line = r.reading line (d.enter line opens) := by
  have hstatement : line.kind ≠ .statement := fun hk => by
    rw [hk] at opens
    cases opens
  rw [advance, dif_neg hstatement, dif_pos opens]

theorem advance_otherwise (isElse : line.kind = .otherwise) : d.advance r line = d.fork line isElse := by
  rw [advance, dif_neg (by rw [isElse]; decide), dif_neg (by rw [isElse]; decide), dif_pos isElse]

theorem advance_close (closes : line.kind = .close) : d.advance r line = d.leave line closes := by
  rw [advance, dif_neg (by rw [closes]; decide), dif_neg (by rw [closes]; decide),
    dif_neg (by rw [closes]; decide), dif_pos closes]

/-- A line of no other kind stands below a hat. -/
theorem advance_foreign (hstatement : line.kind ≠ .statement) (hopens : ¬line.kind.opens = true)
    (helse : line.kind ≠ .otherwise) (hclose : line.kind ≠ .close) :
    d.advance r line = .error (.missingKey line.kind.name) := by
  rw [advance, dif_neg hstatement, dif_neg hopens, dif_neg helse, dif_neg hclose]

/-- A line takes a draft further if the grammar has a step for it and it can be read. -/
theorem advance_of_step (h : d.Step line d') (hr : r.isReadable line = true) : d.advance r line = .ok d' := by
  cases h with
  | statement _ _ isStatement => rw [advance_statement isStatement, Reader.reading_eq_ok_iff.2 ⟨hr, rfl⟩]
  | enter _ _ opens => rw [advance_opener opens, Reader.reading_eq_ok_iff.2 ⟨hr, rfl⟩]
  | «otherwise» _ _ _ _ _ _ isIf _ _ isElse =>
    rw [advance_otherwise isElse]
    exact dif_pos isIf
  | close _ _ _ _ _ _ closes =>
    rw [advance_close closes]
    rfl

/-- A line that takes a draft further has a step in the grammar and can be read. -/
theorem step_of_advance (h : d.advance r line = .ok d') : d.Step line d' ∧ r.isReadable line = true := by
  obtain ⟨hat, isTrigger, items, frames⟩ := d
  unfold advance at h
  split_ifs at h with isStatement opens isElse closes
  · obtain ⟨hr, rfl⟩ := Reader.reading_eq_ok_iff.1 h
    exact ⟨.statement _ line isStatement, hr⟩
  · obtain ⟨hr, rfl⟩ := Reader.reading_eq_ok_iff.1 h
    exact ⟨.enter _ line opens, hr⟩
  · refine ⟨?_, r.isReadable_otherwise isElse⟩
    rcases frames with _ | ⟨⟨opener, opens, body⟩ | _, outer⟩
    · cases h
    · change dite (opener.kind = .ifThen) _ _ = _ at h
      split_ifs at h with isIf
      cases h
      exact .otherwise hat isTrigger items outer opener opens isIf body line isElse
    · cases h
  · refine ⟨?_, r.isReadable_close closes⟩
    cases frames with
    | nil => cases h
    | cons frame outer =>
      cases h
      exact .close hat isTrigger items outer frame line closes

end Draft

/-! ### Sketches -/

namespace Sketch

/-- The scripts that have been read, unless a container is open. -/
def complete (s : Sketch) : Except Fault (List Outline) :=
  match s.current with
  | none => .ok s.done
  | some ⟨hat, isTrigger, items, []⟩ => .ok (s.done ++ [⟨hat, isTrigger, items⟩])
  | some ⟨_, _, _, frame :: _⟩ => .error (.neverClosed frame.opcode frame.line.number)

/-- The sketch behind a line, or the fault of the line. -/
def advance (r : Reader) (s : Sketch) (line : Line) : Except Fault Sketch :=
  if isTrigger : line.kind = .trigger then
    s.complete.bind fun done => r.reading line ⟨done, some ⟨line, isTrigger, [], []⟩⟩
  else
    match s.current with
    | none => .error (Compile.outsideFault line)
    | some d => (d.advance r line).map fun d => ⟨s.done, some d⟩

/-- The sketch behind some lines, or the first fault in them. -/
def advanceAll (r : Reader) (s : Sketch) (lines : List Line) : Except LocatedFault Sketch :=
  lines.foldlM (fun s line => (s.advance r line).mapError line.located) s

/-- The scripts of some lines, or the first fault in them. -/
def read (r : Reader) (lines : List Line) : Except LocatedFault (List Outline) :=
  (start.advanceAll r lines).bind fun s => s.complete.mapError (⟨·, none⟩)

variable {s t : Sketch}

theorem complete_eq_ok_iff {done : List Outline} : s.complete = .ok done ↔ s.finished = some done := by
  obtain ⟨before, current⟩ := s
  match current with
  | none => simp [complete, finished]
  | some ⟨hat, isTrigger, items, []⟩ => simp [complete, finished]
  | some ⟨hat, isTrigger, items, frame :: outer⟩ => simp [complete, finished]

theorem advance_trigger (isTrigger : line.kind = .trigger) : s.advance r line =
    s.complete.bind fun done => r.reading line ⟨done, some ⟨line, isTrigger, [], []⟩⟩ :=
  dif_pos isTrigger

theorem advance_within (hk : line.kind ≠ .trigger) {done : List Outline} {d : Draft} :
    advance r ⟨done, some d⟩ line = (d.advance r line).map fun d => ⟨done, some d⟩ :=
  dif_neg hk

theorem advance_outside (hk : line.kind ≠ .trigger) {done : List Outline} :
    advance r ⟨done, none⟩ line = .error (Compile.outsideFault line) :=
  dif_neg hk

/-- A line takes a sketch further exactly if the grammar has a step for it and it can be read. -/
theorem advance_eq_ok_iff : s.advance r line = .ok t ↔ Step s line t ∧ r.isReadable line = true := by
  constructor
  · intro h
    by_cases isTrigger : line.kind = .trigger
    · rw [advance_trigger isTrigger] at h
      cases hs : s.complete with
      | error fault =>
        rw [hs] at h
        cases h
      | ok done =>
        rw [hs] at h
        obtain ⟨hr, rfl⟩ := Reader.reading_eq_ok_iff.1 h
        exact ⟨.begin (complete_eq_ok_iff.1 hs) line isTrigger, hr⟩
    · obtain ⟨done, current⟩ := s
      cases current with
      | none =>
        rw [advance_outside isTrigger] at h
        cases h
      | some d =>
        rw [advance_within isTrigger] at h
        cases hd : d.advance r line with
        | error fault =>
          rw [hd] at h
          cases h
        | ok d' =>
          rw [hd] at h
          cases h
          obtain ⟨hstep, hr⟩ := Draft.step_of_advance hd
          exact ⟨.within hstep, hr⟩
  · rintro ⟨hstep, hr⟩
    cases hstep with
    | begin finished _ isTrigger =>
      rw [advance_trigger isTrigger, complete_eq_ok_iff.2 finished]
      exact Reader.reading_eq_ok_iff.2 ⟨hr, rfl⟩
    | within hstep => rw [advance_within hstep.kind_ne_trigger, Draft.advance_of_step hstep hr]; rfl

theorem advanceAll_nil : s.advanceAll r [] = .ok s :=
  rfl

theorem advanceAll_cons {lines : List Line} : s.advanceAll r (line :: lines) =
    ((s.advance r line).mapError line.located).bind fun t => t.advanceAll r lines :=
  rfl

theorem advanceAll_append {lines lines' : List Line} : s.advanceAll r (lines ++ lines') =
    (s.advanceAll r lines).bind fun t => t.advanceAll r lines' :=
  List.foldlM_append

/-- A sketch that some lines have taken further has these lines behind its own. -/
theorem lines_of_advanceAll {lines : List Line} (h : s.advanceAll r lines = .ok t) : t.lines = s.lines ++ lines := by
  induction lines generalizing s with
  | nil =>
    obtain rfl := Except.ok.inj h
    exact (List.append_nil _).symm
  | cons line lines ih =>
    rw [advanceAll_cons] at h
    cases hadvance : s.advance r line with
    | error fault =>
      rw [hadvance] at h
      cases h
    | ok u =>
      rw [hadvance] at h
      rw [ih h, (advance_eq_ok_iff.1 hadvance).1.lines, List.append_assoc]
      rfl

/-- Lines with a fault have a first line with one. -/
theorem exists_of_advanceAll_error {lines : List Line} {f : LocatedFault} (h : s.advanceAll r lines = .error f) :
    ∃ before line after t fault, lines = before ++ line :: after ∧ s.advanceAll r before = .ok t ∧
      t.advance r line = .error fault ∧ f = line.located fault := by
  induction lines generalizing s with
  | nil => cases h
  | cons line lines ih =>
    rw [advanceAll_cons] at h
    cases hadvance : s.advance r line with
    | error fault =>
      rw [hadvance] at h
      exact ⟨[], line, lines, s, fault, rfl, rfl, hadvance, (Except.error.inj h).symm⟩
    | ok u =>
      rw [hadvance] at h
      obtain ⟨before, line', after, t, fault, rfl, hbefore, hline, hf⟩ := ih h
      refine ⟨line :: before, line', after, t, fault, rfl, ?_, hline, hf⟩
      rw [advanceAll_cons, hadvance]
      exact hbefore

/-- Lines are read as scripts if they take a sketch to a complete one. -/
theorem read_eq_ok_iff {lines : List Line} {outlines : List Outline} :
    read r lines = .ok outlines ↔ ∃ s, start.advanceAll r lines = .ok s ∧ s.complete = .ok outlines := by
  unfold read
  cases start.advanceAll r lines with
  | error f => simp [Except.bind]
  | ok s => cases hs : s.complete <;> simp [Except.bind, Except.mapError, hs]

/-- Reading ends at the first fault in the lines, or in a container that is open behind them. -/
theorem read_eq_error_iff {lines : List Line} {f : LocatedFault} :
    read r lines = .error f ↔ start.advanceAll r lines = .error f ∨
      ∃ s fault, start.advanceAll r lines = .ok s ∧ s.complete = .error fault ∧ f = ⟨fault, none⟩ := by
  unfold read
  cases start.advanceAll r lines with
  | error f' => simp [Except.bind]
  | ok s => cases hs : s.complete <;> simp [Except.bind, Except.mapError, hs, eq_comm]

end Sketch

end BlockScript
