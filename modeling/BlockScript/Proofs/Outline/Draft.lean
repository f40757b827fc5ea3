import BlockScript.Proofs.Outline.Grammar

/-!
# Reading the grammar line by line

A draft is a script of which a part has been read: the items that are complete, and the frames of the containers
that are still open, the innermost first.  A sketch is a source of which a part has been read.  A line takes a
sketch to at most one other (`Sketch.Step.unique`) and is appended to its lines (`Sketch.Step.lines`).

* `Sketch.Steps.allLines_of_finished`: what has been read without an open container is a sequence of scripts;
* `Sketch.steps_allLines`: every sequence of scripts can be read;
* `Outline.allLines_injective`: the lines of scripts show the scripts.
-/

namespace BlockScript

/-- An open container, with the items of its current body. -/
inductive Frame where
  | first (opener : Line) (opens : opener.kind.opens = true) (items : List Item)
  /-- The second body of an `if`. -/
  | second (opener : Line) (isIf : opener.kind = .ifThen) (body : List Item)
      (middle : Line) (isElse : middle.kind = .otherwise) (items : List Item)

namespace Frame

/-- The lines read since the container was opened. -/
def lines : Frame → List Line
  | first opener _ items => opener :: Item.allLines items
  | second opener _ body middle _ items => opener :: (Item.allLines body ++ middle :: Item.allLines items)

/-- The lines of some frames, the innermost first. -/
def allLines : List Frame → List Line
  | [] => []
  | frame :: outer => allLines outer ++ frame.lines

/-- The frame with another item in its body. -/
def push (item : Item) : Frame → Frame
  | first opener opens items => first opener opens (items ++ [item])
  | second opener isIf body middle isElse items => second opener isIf body middle isElse (items ++ [item])

/-- The container that an `end` makes of the frame. -/
def closed (closer : Line) (closes : closer.kind = .close) : Frame → Item
  | first opener opens items => .enclosed opener opens items closer closes
  | second opener isIf body middle isElse items =>
    .forked opener isIf body middle isElse items closer closes

theorem lines_push (item : Item) (frame : Frame) : (frame.push item).lines = frame.lines ++ item.lines := by
  cases frame <;> simp [push, lines, Item.allLines_append, Item.allLines]

theorem lines_closed {closer : Line} (closes : closer.kind = .close) (frame : Frame) :
    (frame.closed closer closes).lines = frame.lines ++ [closer] := by
  cases frame <;> simp [closed, lines, Item.lines]

end Frame

/-- A script of which a part has been read. -/
structure Draft where
  hat : Line
  isTrigger : hat.kind = .trigger
  /-- The items outside of the open containers. -/
  items : List Item
  /-- The open containers, the innermost first. -/
  frames : List Frame

namespace Draft

/-- The lines that have been read. -/
def lines (d : Draft) : List Line :=
  d.hat :: (Item.allLines d.items ++ Frame.allLines d.frames)

/-- The draft with another item where the reading is. -/
def push (item : Item) (d : Draft) : Draft :=
  match d.frames with
  | [] => { d with items := d.items ++ [item] }
  | frame :: outer => { d with frames := frame.push item :: outer }

/-- The draft in which a container has been opened. -/
def enter (opener : Line) (opens : opener.kind.opens = true) (d : Draft) : Draft :=
  { d with frames := .first opener opens [] :: d.frames }

/-- What a line below the hat does to a draft. -/
inductive Step : Draft → Line → Draft → Prop where
  | statement (d : Draft) (line : Line) (isStatement : line.kind = .statement) :
      Step d line (d.push (.statement line isStatement))
  | enter (d : Draft) (line : Line) (opens : line.kind.opens = true) : Step d line (d.enter line opens)
  | otherwise (hat : Line) (isTrigger : hat.kind = .trigger) (items : List Item) (outer : List Frame)
      (opener : Line) (opens : opener.kind.opens = true) (isIf : opener.kind = .ifThen) (body : List Item)
      (line : Line) (isElse : line.kind = .otherwise) :
      Step ⟨hat, isTrigger, items, .first opener opens body :: outer⟩ line
        ⟨hat, isTrigger, items, .second opener isIf body line isElse [] :: outer⟩
  | close (hat : Line) (isTrigger : hat.kind = .trigger) (items : List Item) (outer : List Frame)
      (frame : Frame) (line : Line) (closes : line.kind = .close) :
      Step ⟨hat, isTrigger, items, frame :: outer⟩ line
        (push (frame.closed line closes) ⟨hat, isTrigger, items, outer⟩)

theorem lines_push (item : Item) (d : Draft) : (d.push item).lines = d.lines ++ item.lines := by
  unfold push lines
  split
  · rename_i h
    simp [h, Item.allLines_append, Item.allLines, Frame.allLines]
  · rename_i h
    simp [h, Frame.allLines, Frame.lines_push]

/-- A line is appended to the lines of the draft. -/
theorem Step.lines {d d' : Draft} {line : Line} (h : Step d line d') : d'.lines = d.lines ++ [line] := by
  cases h with
  | statement => rw [lines_push, Item.lines]
  | enter => simp [Draft.lines, Draft.enter, Frame.allLines, Frame.lines, Item.allLines]
  | «otherwise» => simp [Draft.lines, Frame.allLines, Frame.lines, Item.allLines]
  | close => rw [lines_push, Frame.lines_closed]; simp [Draft.lines, Frame.allLines]

/-- A line takes a draft to at most one other. -/
theorem Step.unique {d d' d'' : Draft} {line : Line} (h : Step d line d') (h' : Step d line d'') : d' = d'' := by
  cases h <;> cases h' <;> try rfl
  all_goals
    exfalso
    simp_all [LineKind.opens]

/-- A hat begins a script of its own. -/
theorem Step.kind_ne_trigger {d d' : Draft} {line : Line} (h : Step d line d') : line.kind ≠ .trigger := by
  intro hk
  cases h with
  | statement _ _ isStatement => rw [hk] at isStatement; cases isStatement
  | enter _ _ opens => rw [hk] at opens; cases opens
  | «otherwise» _ _ _ _ _ _ _ _ _ isElse => rw [hk] at isElse; cases isElse
  | close _ _ _ _ _ _ closes => rw [hk] at closes; cases closes

end Draft

/-- A source of which a part has been read. -/
structure Sketch where
  /-- The scripts in front of the current one. -/
  done : List Outline
  current : Option Draft

namespace Sketch

/-- Nothing has been read. -/
def start : Sketch :=
  ⟨[], none⟩

/-- The lines that have been read. -/
def lines (s : Sketch) : List Line :=
  Outline.allLines s.done ++ (s.current.map Draft.lines).getD []

/-- The scripts that have been read, if no container is open. -/
def finished (s : Sketch) : Option (List Outline) :=
  match s.current with
  | none => some s.done
  | some ⟨hat, isTrigger, items, []⟩ => some (s.done ++ [⟨hat, isTrigger, items⟩])
  | some ⟨_, _, _, _ :: _⟩ => none

/-- What a line does to a sketch. -/
inductive Step : Sketch → Line → Sketch → Prop where
  | begin {s : Sketch} {done : List Outline} (finished : s.finished = some done) (line : Line)
      (isTrigger : line.kind = .trigger) : Step s line ⟨done, some ⟨line, isTrigger, [], []⟩⟩
  | within {done : List Outline} {d d' : Draft} {line : Line} (step : d.Step line d') :
      Step ⟨done, some d⟩ line ⟨done, some d'⟩

/-- What some lines do to a sketch. -/
inductive Steps : Sketch → List Line → Sketch → Prop where
  | nil (s : Sketch) : Steps s [] s
  | cons {s t u : Sketch} {line : Line} {lines : List Line} (step : Step s line t) (steps : Steps t lines u) :
      Steps s (line :: lines) u

theorem Steps.append {s t u : Sketch} {lines lines' : List Line} (h : Steps s lines t)
    (h' : Steps t lines' u) : Steps s (lines ++ lines') u := by
  induction h with
  | nil => exact h'
  | cons step _ ih => exact .cons step (ih h')

theorem Steps.single {s t : Sketch} {line : Line} (h : Step s line t) : Steps s [line] t :=
  .cons h (.nil t)

/-! ### What has been read -/

/-- What is finished has no open container. -/
theorem cases_of_finished {s : Sketch} {outlines : List Outline} (h : s.finished = some outlines) :
    s = ⟨outlines, none⟩ ∨ ∃ done hat isTrigger items,
      s = ⟨done, some ⟨hat, isTrigger, items, []⟩⟩ ∧ outlines = done ++ [⟨hat, isTrigger, items⟩] := by
  obtain ⟨done, current⟩ := s
  cases current with
  | none =>
    obtain rfl : done = outlines := Option.some.inj h
    exact .inl rfl
  | some d =>
    obtain ⟨hat, isTrigger, items, frames⟩ := d
    cases frames with
    | nil => exact .inr ⟨done, hat, isTrigger, items, rfl, (Option.some.inj h).symm⟩
    | cons frame outer => cases h

theorem allLines_of_finished {s : Sketch} {outlines : List Outline} (h : s.finished = some outlines) :
    Outline.allLines outlines = s.lines := by
  rcases cases_of_finished h with rfl | ⟨done, hat, isTrigger, items, rfl, rfl⟩
  · exact (List.append_nil _).symm
  · simp [lines, Outline.allLines, Outline.lines, Draft.lines, Frame.allLines]

/-- A line is appended to the lines of the sketch. -/
theorem Step.lines {s t : Sketch} {line : Line} (h : Step s line t) : t.lines = s.lines ++ [line] := by
  cases h with
  | begin finished line isTrigger =>
    rw [← allLines_of_finished finished]
    rfl
  | within step => simp [Sketch.lines, step.lines]

theorem Steps.lines {s t : Sketch} {lines : List Line} (h : Steps s lines t) : t.lines = s.lines ++ lines := by
  induction h with
  | nil => exact (List.append_nil _).symm
  | cons step _ ih => rw [ih, step.lines, List.append_assoc]; rfl

/-- What has been read without an open container is a sequence of scripts. -/
theorem Steps.allLines_of_finished {s : Sketch} {lines : List Line} {outlines : List Outline}
    (h : Steps start lines s) (hs : s.finished = some outlines) : Outline.allLines outlines = lines := by
  rw [Sketch.allLines_of_finished hs, h.lines]
  rfl

/-- A line takes a sketch to at most one other. -/
theorem Step.unique {s t u : Sketch} {line : Line} (h : Step s line t) (h' : Step s line u) : t = u := by
  cases h with
  | begin finished line isTrigger =>
    cases h' with
    | begin finished' => rw [Option.some.inj (finished.symm.trans finished')]
    | within step => exact absurd isTrigger step.kind_ne_trigger
  | within step =>
    cases h' with
    | begin _ _ isTrigger => exact absurd isTrigger step.kind_ne_trigger
    | within step' => rw [step.unique step']

/-! ### What can be read -/

private def pushAll (items : List Item) (d : Draft) : Draft :=
  items.foldl (fun d item => d.push item) d

/-- Where items are appended one at a time, they are appended together. -/
private theorem pushAll_eq {place : List Item → Draft}
    (h : ∀ items item, (place items).push item = place (items ++ [item])) (items added : List Item) :
    pushAll added (place items) = place (items ++ added) := by
  induction added generalizing items with
  | nil =>
    rw [List.append_nil]
    rfl
  | cons item added ih =>
    have hstep : pushAll (item :: added) (place items) = pushAll added (place (items ++ [item])) := by
      rw [← h]
      rfl
    rw [hstep, ih, List.append_assoc]
    rfl

mutual

private theorem steps_lines (done : List Outline) :
    (item : Item) → (d : Draft) → Steps ⟨done, some d⟩ item.lines ⟨done, some (d.push item)⟩
  | .statement line isStatement, d => .single (.within (.statement d line isStatement))
  | .enclosed opener opens body closer closes, d => by
    have hbody := steps_allItems done body (d.enter opener opens)
    rw [Draft.enter, @pushAll_eq (fun items => { d with frames := .first opener opens items :: d.frames })
      (fun _ _ => rfl)] at hbody
    have hclose := Steps.single (@Step.within done _ _ _
      (.close d.hat d.isTrigger d.items d.frames (.first opener opens body) closer closes))
    rw [Item.lines]
    exact .cons (.within (.enter d opener opens)) (hbody.append hclose)
  | .forked opener isIf body middle isElse alternative closer closes, d => by
    have opens : opener.kind.opens = true := by rw [isIf]; rfl
    have hbody := steps_allItems done body (d.enter opener opens)
    rw [Draft.enter, @pushAll_eq (fun items => { d with frames := .first opener opens items :: d.frames })
      (fun _ _ => rfl)] at hbody
    have hmiddle := @Step.within done _ _ _
      (.otherwise d.hat d.isTrigger d.items d.frames opener opens isIf body middle isElse)
    have halternative := steps_allItems done alternative
      { d with frames := .second opener isIf body middle isElse [] :: d.frames }
    rw [@pushAll_eq (fun items => { d with frames := .second opener isIf body middle isElse items :: d.frames })
      (fun _ _ => rfl)] at halternative
    have hclose := Steps.single (@Step.within done _ _ _
      (.close d.hat d.isTrigger d.items d.frames (.second opener isIf body middle isElse alternative)
        closer closes))
    rw [Item.lines]
    exact .cons (.within (.enter d opener opens))
      (hbody.append (.cons hmiddle (halternative.append hclose)))

private theorem steps_allItems (done : List Outline) :
    (items : List Item) → (d : Draft) →
      Steps ⟨done, some d⟩ (Item.allLines items) ⟨done, some (pushAll items d)⟩
  | [], _ => .nil _
  | item :: rest, d => (steps_lines done item d).append (steps_allItems done rest (d.push item))

end

/-- Every sequence of scripts can be read. -/
theorem steps_allLines (outlines : List Outline) {s : Sketch} {done : List Outline} (hs : s.finished = some done) :
    ∃ t, Steps s (Outline.allLines outlines) t ∧ t.finished = some (done ++ outlines) := by
  induction outlines generalizing s done with
  | nil => exact ⟨s, .nil s, by rw [hs, List.append_nil]⟩
  | cons o outlines ih =>
    have hitems := steps_allItems done o.items ⟨o.hat, o.isTrigger, [], []⟩
    rw [@pushAll_eq (fun items => ⟨o.hat, o.isTrigger, items, []⟩) (fun _ _ => rfl)] at hitems
    obtain ⟨t, ht, hfinished⟩ := ih (s := ⟨done, some ⟨o.hat, o.isTrigger, o.items, []⟩⟩) rfl
    refine ⟨t, .cons (.begin hs o.hat o.isTrigger) (hitems.append ht), ?_⟩
    rw [hfinished, List.append_assoc]
    rfl

theorem Steps.unique {s t u : Sketch} {lines : List Line} (h : Steps s lines t) (h' : Steps s lines u) : t = u := by
  induction h generalizing u with
  | nil =>
    cases h'
    rfl
  | cons step _ ih =>
    cases h' with
    | cons step' steps' =>
      obtain rfl := step.unique step'
      exact ih steps'

end Sketch

/-- The lines of scripts are those of no other scripts. -/
theorem Outline.allLines_injective {outlines outlines' : List Outline}
    (h : allLines outlines = allLines outlines') : outlines = outlines' := by
  obtain ⟨t, hsteps, ht⟩ := Sketch.steps_allLines outlines (s := Sketch.start) rfl
  obtain ⟨t', hsteps', ht'⟩ := Sketch.steps_allLines outlines' (s := Sketch.start) rfl
  rw [← h] at hsteps'
  rw [hsteps.unique hsteps', ht'] at ht
  exact (Option.some.inj ht).symm

end BlockScript
