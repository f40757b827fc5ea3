import BlockScript.Proofs.Outline.Reading

/-!
# Lines behind other lines

A `when` line completes the script in front of it, and what has been completed is not looked at again.  So lines that
begin with a `when` line are read behind others as they are read alone (`Sketch.read_append`).
-/

namespace BlockScript.Sketch

variable {r : Reader} {outlines : List Outline}

/-- The sketch behind some complete scripts. -/
def after (outlines : List Outline) (s : Sketch) : Sketch :=
  { s with done := outlines ++ s.done }

theorem complete_after (s : Sketch) : (s.after outlines).complete = s.complete.map (outlines ++ ·) := by
  obtain ⟨done, current⟩ := s
  match current with
  | none => rfl
  | some ⟨hat, isTrigger, items, []⟩ => exact congrArg Except.ok (List.append_assoc _ _ _)
  | some ⟨_, _, _, _ :: _⟩ => rfl

private theorem reading_after (line : Line) (s : Sketch) :
    r.reading line (s.after outlines) = (r.reading line s).map (after outlines) := by
  unfold Reader.reading
  split <;> rfl

/-- A line does behind complete scripts what it does alone. -/
theorem advance_after (s : Sketch) (line : Line) :
    (s.after outlines).advance r line = (s.advance r line).map (after outlines) := by
  by_cases isTrigger : line.kind = .trigger
  · rw [advance_trigger isTrigger, advance_trigger isTrigger, complete_after]
    cases s.complete with
    | error fault => rfl
    | ok done => exact reading_after line ⟨done, some ⟨line, isTrigger, [], []⟩⟩
  · obtain ⟨done, current⟩ := s
    cases current with
    | none =>
      rw [advance_outside isTrigger]
      exact advance_outside isTrigger
    | some d =>
      rw [advance_within isTrigger]
      refine (advance_within isTrigger).trans ?_
      cases d.advance r line <;> rfl

theorem advanceAll_after (s : Sketch) (lines : List Line) :
    (s.after outlines).advanceAll r lines = (s.advanceAll r lines).map (after outlines) := by
  induction lines generalizing s with
  | nil => rfl
  | cons line lines ih =>
    rw [advanceAll_cons, advanceAll_cons, advance_after]
    cases s.advance r line with
    | error fault => rfl
    | ok t => exact ih t

variable {lines lines' : List Line}

/-- Lines that begin with a `when` line are read behind complete scripts as they are alone. -/
private theorem bind_advanceAll_of_complete {s : Sketch} (hs : s.complete = .ok outlines)
    (hlines' : ∀ line ∈ lines'.head?, line.kind = .trigger) :
    ((s.advanceAll r lines').bind fun t => t.complete.mapError (⟨·, none⟩)) =
      (read r lines').map (outlines ++ ·) := by
  have hstart : (start.after outlines).complete = .ok outlines :=
    (complete_after start).trans (congrArg Except.ok (List.append_nil outlines))
  cases lines' with
  | nil =>
    rw [read, advanceAll_nil, advanceAll_nil, Except.bind, hs]
    exact congrArg Except.ok (List.append_nil outlines).symm
  | cons line lines' =>
    have isTrigger := hlines' line rfl
    -- A `when` line looks at nothing but the complete scripts, which both sketches have.
    have hadvance : s.advance r line = (start.after outlines).advance r line := by
      rw [advance_trigger isTrigger, advance_trigger isTrigger, hs, hstart]
    rw [advanceAll_cons, hadvance, ← advanceAll_cons, advanceAll_after, read]
    cases start.advanceAll r (line :: lines') with
    | error f => rfl
    | ok t =>
      show (t.after outlines).complete.mapError _ = (t.complete.mapError _).map _
      rw [complete_after]
      cases t.complete <;> rfl

/-- Lines that begin with a `when` line are read behind others as they are alone. -/
theorem read_append (hlines' : ∀ line ∈ lines'.head?, line.kind = .trigger) (h : read r lines = .ok outlines) :
    read r (lines ++ lines') = (read r lines').map (outlines ++ ·) := by
  obtain ⟨s, hall, hs⟩ := read_eq_ok_iff.1 h
  rw [read, advanceAll_append, hall]
  exact bind_advanceAll_of_complete hs hlines'

/-- A container that is open is never closed, whether the lines end or a `when` line comes. -/
private theorem exists_bind_advanceAll_error {s : Sketch} {fault : Fault} (hs : s.complete = .error fault)
    (hlines' : ∀ line ∈ lines'.head?, line.kind = .trigger) : ∃ context,
      ((s.advanceAll r lines').bind fun t => t.complete.mapError (⟨·, none⟩)) = .error ⟨fault, context⟩ := by
  cases lines' with
  | nil =>
    refine ⟨none, ?_⟩
    show s.complete.mapError _ = _
    rw [hs]
    rfl
  | cons line lines' =>
    refine ⟨some ⟨line.number, String.ofList line.text⟩, ?_⟩
    rw [advanceAll_cons, advance_trigger (hlines' line rfl), hs]
    rfl

/-- A container that is never closed is reported the same, wherever that is noticed. -/
private theorem diagnose_of_complete {s : Sketch} {fault : Fault} (hs : s.complete = .error fault)
    (context context' : Option LineContext) : fault.diagnose context = fault.diagnose context' := by
  obtain ⟨done, current⟩ := s
  match current with
  | none => cases hs
  | some ⟨_, _, _, []⟩ => cases hs
  | some ⟨_, _, _, _ :: _⟩ =>
    cases hs
    rfl

/-- A fault in lines is reported the same if lines that begin with a `when` line follow. -/
theorem exists_read_append_error (hlines' : ∀ line ∈ lines'.head?, line.kind = .trigger) {f : LocatedFault}
    (h : read r lines = .error f) : ∃ f', read r (lines ++ lines') = .error f' ∧ f'.diagnose = f.diagnose := by
  rw [read, advanceAll_append]
  rcases read_eq_error_iff.1 h with hall | ⟨s, fault, hall, hs, rfl⟩
  · rw [hall]
    exact ⟨f, rfl, rfl⟩
  · obtain ⟨context, herror⟩ := exists_bind_advanceAll_error (r := r) hs hlines'
    rw [hall]
    exact ⟨⟨fault, context⟩, herror, diagnose_of_complete hs context none⟩

end BlockScript.Sketch
