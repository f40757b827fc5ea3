import BlockScript.Proofs.Outline.Reading
import BlockScript.Proofs.Phrase.Faults

/-!
# Lines elsewhere

Reading a source looks at the numbers of its lines only to report faults, and never at their columns.  So lines that
stand elsewhere are read as they were, and a fault in them is the same fault elsewhere (`Sketch.read_relocate`).  What
has been read is laid out as the same blocks (`Outline.scripts_relocate`).
-/

namespace BlockScript

/-- Where lines move to: each number has a new one, and each line a new column. -/
structure Relocation where
  number : Int → Int
  column : Line → Int

/-- The line elsewhere. -/
def Line.relocate (m : Relocation) (line : Line) : Line :=
  { line with number := m.number line.number, column := m.column line }

/-- The fault elsewhere; only a container that is never closed names a line. -/
def Fault.relocate (number : Int → Int) : Fault → Fault
  | neverClosed opcode line => neverClosed opcode (number line)
  | fault => fault

/-- The fault elsewhere. -/
def LocatedFault.relocate (number : Int → Int) (f : LocatedFault) : LocatedFault :=
  ⟨f.fault.relocate number, f.context.map fun context => { context with line := number context.line }⟩

mutual

/-- The item elsewhere. -/
def Item.relocate (m : Relocation) : Item → Item
  | .statement line isStatement => .statement (line.relocate m) isStatement
  | .enclosed opener opens body closer closes =>
    .enclosed (opener.relocate m) opens (Item.relocateAll m body) (closer.relocate m) closes
  | .forked opener isIf body middle isElse alternative closer closes =>
    .forked (opener.relocate m) isIf (Item.relocateAll m body) (middle.relocate m) isElse
      (Item.relocateAll m alternative) (closer.relocate m) closes

/-- Some items elsewhere. -/
def Item.relocateAll (m : Relocation) : List Item → List Item
  | [] => []
  | item :: rest => item.relocate m :: Item.relocateAll m rest

end

/-- The open container elsewhere. -/
def Frame.relocate (m : Relocation) : Frame → Frame
  | first opener opens items => first (opener.relocate m) opens (Item.relocateAll m items)
  | second opener isIf body middle isElse items =>
    second (opener.relocate m) isIf (Item.relocateAll m body) (middle.relocate m) isElse (Item.relocateAll m items)

/-- The script elsewhere. -/
def Outline.relocate (m : Relocation) (o : Outline) : Outline :=
  ⟨o.hat.relocate m, o.isTrigger, Item.relocateAll m o.items⟩

/-- The draft elsewhere. -/
def Draft.relocate (m : Relocation) (d : Draft) : Draft :=
  ⟨d.hat.relocate m, d.isTrigger, Item.relocateAll m d.items, d.frames.map (Frame.relocate m)⟩

/-- The sketch elsewhere. -/
def Sketch.relocate (m : Relocation) (s : Sketch) : Sketch :=
  ⟨s.done.map (Outline.relocate m), s.current.map (Draft.relocate m)⟩

variable {m : Relocation} {r : Reader}

/-! ### Faults -/

/-- A fault elsewhere is reported with the same kind. -/
theorem LocatedFault.kind_diagnose_relocate (f : LocatedFault) (number : Int → Int) :
    (f.relocate number).diagnose.kind = f.diagnose.kind := by
  obtain ⟨fault, context⟩ := f
  cases fault <;> rfl

/-- A fault elsewhere is reported elsewhere. -/
theorem LocatedFault.line?_diagnose_relocate (f : LocatedFault) (number : Int → Int) :
    (f.relocate number).diagnose.line? = f.diagnose.line?.map number := by
  obtain ⟨fault, context⟩ := f
  cases fault <;> cases context <;> rfl

/-- A fault that does not name a line is the same elsewhere. -/
theorem Fault.relocate_eq {fault : Fault} (h : fault.ownLine = none) (number : Int → Int) :
    fault.relocate number = fault := by
  cases fault with
  | neverClosed opcode line => cases h
  | _ => rfl

/-- How a fault is reported elsewhere depends only on where the reported line is. -/
theorem LocatedFault.diagnose_relocate_congr {f : LocatedFault} {n : Int} (h : f.diagnose.line? = some n)
    {number number' : Int → Int} (hn : number n = number' n) :
    (f.relocate number).diagnose = (f.relocate number').diagnose := by
  obtain ⟨fault, context⟩ := f
  cases hown : fault.ownLine with
  | some line =>
    cases fault with
    | neverClosed opcode line =>
      obtain rfl : line = n := Option.some.inj h
      simp only [diagnose, relocate, Fault.relocate, Fault.diagnose, hn]
      rfl
    | _ => cases hown
  | none =>
    unfold relocate
    rw [Fault.relocate_eq hown, Fault.relocate_eq hown]
    cases context with
    | none => rfl
    | some context =>
      simp only [diagnose, Fault.diagnose, Diagnostic.locate, hown] at h ⊢
      split_ifs at h ⊢
      · obtain rfl : context.line = n := Option.some.inj h
        rw [Option.map_some, Option.map_some, hn]
      · rfl

/-- What a line says does not name a line. -/
theorem Fault.OfLine.ownLine {line : Line} {fault : Fault} (h : fault.OfLine r line) : fault.ownLine = none := by
  cases h with
  | phrase h => cases h <;> rfl
  | _ => rfl

/-- A line elsewhere says the same. -/
theorem Reader.reading_relocate {α β : Type} (line : Line) (a : α) (g : α → β) :
    r.reading (line.relocate m) (g a) = ((r.reading line a).map g).mapError (Fault.relocate m.number) := by
  have hfaults : r.faults (line.relocate m) = r.faults line := rfl
  have hof : ∀ fault ∈ r.faults line, fault.relocate m.number = fault :=
    fun fault hfault => Fault.relocate_eq (Reader.ofLine_of_mem_faults hfault).ownLine _
  unfold reading
  rw [hfaults]
  cases h : r.faults line with
  | nil => rfl
  | cons fault rest =>
    rw [h] at hof
    exact congrArg Except.error (hof fault List.mem_cons_self).symm

/-! ### Drafts -/

theorem Item.relocateAll_append (items items' : List Item) :
    relocateAll m (items ++ items') = relocateAll m items ++ relocateAll m items' := by
  induction items with
  | nil => rfl
  | cons item items ih => rw [List.cons_append, relocateAll, ih, relocateAll, List.cons_append]

namespace Frame

theorem push_relocate (item : Item) (frame : Frame) :
    (frame.push item).relocate m = (frame.relocate m).push (item.relocate m) := by
  cases frame <;> simp [push, relocate, Item.relocateAll_append, Item.relocateAll]

theorem closed_relocate (frame : Frame) (line : Line) (closes : line.kind = .close) :
    (frame.closed line closes).relocate m = (frame.relocate m).closed (line.relocate m) closes := by
  cases frame <;> simp [closed, relocate, Item.relocate]

theorem opcode_relocate (frame : Frame) : (frame.relocate m).opcode = frame.opcode := by
  cases frame <;> rfl

theorem number_line_relocate (frame : Frame) : (frame.relocate m).line.number = m.number frame.line.number := by
  cases frame <;> rfl

end Frame

namespace Draft

variable (d : Draft) (line : Line)

theorem push_relocate (item : Item) : (d.push item).relocate m = (d.relocate m).push (item.relocate m) := by
  obtain ⟨hat, isTrigger, items, frames⟩ := d
  cases frames with
  | nil => simp [push, relocate, Item.relocateAll_append, Item.relocateAll]
  | cons frame outer => simp [push, relocate, Frame.push_relocate]

theorem fork_relocate (isElse : line.kind = .otherwise) :
    (d.relocate m).fork (line.relocate m) isElse =
      ((d.fork line isElse).map (relocate m)).mapError (Fault.relocate m.number) := by
  obtain ⟨hat, isTrigger, items, frames⟩ := d
  rcases frames with _ | ⟨⟨opener, opens, body⟩ | _, outer⟩
  · rfl
  · unfold fork
    by_cases isIf : opener.kind = .ifThen
    · simp only [relocate, List.map_cons, Frame.relocate, Line.relocate, dif_pos isIf]
      rfl
    · simp only [relocate, List.map_cons, Frame.relocate, Line.relocate, dif_neg isIf]
      rfl
  · rfl

theorem leave_relocate (closes : line.kind = .close) :
    (d.relocate m).leave (line.relocate m) closes =
      ((d.leave line closes).map (relocate m)).mapError (Fault.relocate m.number) := by
  obtain ⟨hat, isTrigger, items, frames⟩ := d
  cases frames with
  | nil => rfl
  | cons frame outer =>
    have hpush := push_relocate (m := m) ⟨hat, isTrigger, items, outer⟩ (frame.closed line closes)
    rw [Frame.closed_relocate] at hpush
    exact congrArg Except.ok hpush.symm

/-- A line elsewhere takes a draft elsewhere as far. -/
theorem advance_relocate :
    (d.relocate m).advance r (line.relocate m) =
      ((d.advance r line).map (relocate m)).mapError (Fault.relocate m.number) := by
  by_cases isStatement : line.kind = .statement
  · have hstatement : (line.relocate m).kind = .statement := isStatement
    rw [advance_statement hstatement, advance_statement isStatement, ← Reader.reading_relocate, push_relocate]
    rfl
  by_cases opens : line.kind.opens = true
  · have hopens : (line.relocate m).kind.opens = true := opens
    rw [advance_opener hopens, advance_opener opens, ← Reader.reading_relocate]
    rfl
  by_cases isElse : line.kind = .otherwise
  · have helse : (line.relocate m).kind = .otherwise := isElse
    rw [advance_otherwise helse, advance_otherwise isElse, ← fork_relocate]
  by_cases closes : line.kind = .close
  · have hcloses : (line.relocate m).kind = .close := closes
    rw [advance_close hcloses, advance_close closes, ← leave_relocate]
  · rw [advance_foreign isStatement opens isElse closes]
    exact @advance_foreign r (line.relocate m) _ isStatement opens isElse closes

end Draft

/-! ### Sketches -/

namespace Sketch

variable (s : Sketch)

theorem complete_relocate :
    (s.relocate m).complete = (s.complete.map (List.map (Outline.relocate m))).mapError (Fault.relocate m.number) := by
  obtain ⟨done, current⟩ := s
  rcases current with _ | ⟨hat, isTrigger, items, _ | ⟨frame, outer⟩⟩
  · rfl
  · simp [complete, relocate, Draft.relocate, Outline.relocate, Except.map, Except.mapError]
  · simp [complete, relocate, Draft.relocate, Frame.opcode_relocate, Frame.number_line_relocate, Except.map,
      Except.mapError, Fault.relocate]

/-- A line elsewhere takes a sketch elsewhere as far. -/
theorem advance_relocate (line : Line) :
    (s.relocate m).advance r (line.relocate m) =
      ((s.advance r line).map (relocate m)).mapError (Fault.relocate m.number) := by
  by_cases isTrigger : line.kind = .trigger
  · have htrigger : (line.relocate m).kind = .trigger := isTrigger
    rw [advance_trigger htrigger, advance_trigger isTrigger, complete_relocate]
    cases s.complete with
    | error fault => rfl
    | ok done => exact Reader.reading_relocate line (⟨done, some ⟨line, isTrigger, [], []⟩⟩ : Sketch) (relocate m)
  · have htrigger : (line.relocate m).kind ≠ .trigger := isTrigger
    obtain ⟨done, current⟩ := s
    cases current with
    | none =>
      rw [advance_outside isTrigger]
      refine (advance_outside htrigger).trans (congrArg Except.error ?_)
      unfold Compile.outsideFault
      cases hk : line.kind <;> simp [Line.relocate, hk, Fault.relocate]
    | some d =>
      rw [advance_within isTrigger]
      refine (advance_within htrigger).trans ?_
      rw [Draft.advance_relocate]
      cases d.advance r line <;> rfl

/-- Lines elsewhere take a sketch elsewhere as far. -/
theorem advanceAll_relocate (lines : List Line) : (s.relocate m).advanceAll r (lines.map (Line.relocate m)) =
    ((s.advanceAll r lines).map (relocate m)).mapError (LocatedFault.relocate m.number) := by
  induction lines generalizing s with
  | nil => rfl
  | cons line lines ih =>
    rw [List.map_cons, advanceAll_cons, advanceAll_cons, advance_relocate]
    cases s.advance r line with
    | error fault => rfl
    | ok t => exact ih t

/-- Lines elsewhere are read as they were. -/
theorem read_relocate (lines : List Line) : read r (lines.map (Line.relocate m)) =
    ((read r lines).map (List.map (Outline.relocate m))).mapError (LocatedFault.relocate m.number) := by
  have hstart : start = relocate m start := rfl
  rw [read, hstart, advanceAll_relocate, read]
  cases start.advanceAll r lines with
  | error f => rfl
  | ok s =>
    show (s.relocate m).complete.mapError _ = ((s.complete.mapError _).map _).mapError _
    rw [complete_relocate]
    cases s.complete <;> rfl

end Sketch

/-! ### Layout -/

section Layout

variable {ids : IdSource}

/-- A line elsewhere says the same. -/
theorem Reader.phrase_relocate (line : Line) : r.phrase (line.relocate m) = r.phrase line :=
  rfl

namespace Item

theorem first?_relocate (n : Nat) (items : List Item) : first? ids n (relocateAll m items) = first? ids n items := by
  cases items <;> rfl

mutual

theorem size_relocate : (item : Item) → (item.relocate m).size r = item.size r
  | .statement _ _ => rfl
  | .enclosed _ _ body _ _ => by simp only [relocate, size, Reader.phrase_relocate, sizes_relocate body]
  | .forked _ _ body _ _ alternative _ _ => by
    simp only [relocate, size, Reader.phrase_relocate, sizes_relocate body, sizes_relocate alternative]

theorem sizes_relocate : (items : List Item) → sizes r (relocateAll m items) = sizes r items
  | [] => rfl
  | item :: rest => by rw [relocateAll, sizes, sizes, size_relocate item, sizes_relocate rest]

end

theorem before_relocate (n : Nat) (item : Item) :
    (r.phrase (item.relocate m).opener).before ids n = (r.phrase item.opener).before ids n := by
  cases item <;> rfl

theorem block_relocate (n : Nat) (item : Item) : (item.relocate m).block r ids n = item.block r ids n := by
  cases item with
  | statement line isStatement => rfl
  | enclosed opener opens body closer closes => simp only [relocate, block, Reader.phrase_relocate, first?_relocate]
  | forked opener isIf body middle isElse alternative closer closes =>
    simp only [relocate, block, Reader.phrase_relocate, first?_relocate, sizes_relocate]

mutual

theorem inside_relocate : (item : Item) → ∀ n, (item.relocate m).inside r ids n = item.inside r ids n
  | .statement _ _, _ => rfl
  | .enclosed _ _ body _ _, n => by simp only [relocate, inside, Reader.phrase_relocate, chained_relocate body]
  | .forked _ _ body _ _ alternative _ _, n => by
    simp only [relocate, inside, Reader.phrase_relocate, sizes_relocate, chained_relocate body,
      chained_relocate alternative]

/-- Items elsewhere are chained as the same blocks. -/
theorem chained_relocate : (items : List Item) → ∀ (n : Nat) (parent : Option BlockId),
    chained r ids n parent (relocateAll m items) = chained r ids n parent items
  | [], _, _ => rfl
  | item :: rest, n, parent => by
    rw [relocateAll, chained, chained, size_relocate, chained_relocate rest, inside_relocate item, block_relocate,
      first?_relocate, before_relocate]

end

end Item

namespace Outline

theorem size_relocate (o : Outline) : (o.relocate m).size r = o.size r := by
  rw [size, size, relocate, Reader.phrase_relocate, Item.sizes_relocate]

theorem script_relocate (n : Nat) (o : Outline) : (o.relocate m).script r ids n = o.script r ids n := by
  simp only [script, blocks, relocate, Reader.phrase_relocate, Item.first?_relocate, Item.chained_relocate]

/-- Scripts elsewhere are laid out as the same blocks. -/
theorem scripts_relocate (n : Nat) (outlines : List Outline) :
    scripts r ids n (outlines.map (relocate m)) = scripts r ids n outlines := by
  induction outlines generalizing n with
  | nil => rfl
  | cons o outlines ih => rw [List.map_cons, scripts, scripts, script_relocate, size_relocate, ih]

end Outline

end Layout

end BlockScript
