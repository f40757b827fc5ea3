import BlockScript.Proofs.Builder.Finish

/-!
# Compiling follows the grammar

`Sketch.Held` says that the state of compiling holds what a sketch says has been read: the scripts that are complete
are laid out one behind the other, and the builder holds the blocks of the current one.  A line that is compiled
keeps this (`Sketch.Held.exists_step`), and so do all lines up to the end.

* `Compile.exists_outlines_of_run`: if some lines compile, they are the lines of scripts, can all be read, and give
  the blocks of these scripts;
* `Compile.run_of_outlines`: the lines of scripts compile if they can all be read and no id comes twice.
-/

namespace BlockScript

namespace Compile

theorem lift_eq_ok_iff {α : Type} {context : Option LineContext} {step : Build α} {p p' : Progress} {a : α} :
    lift context step p = .ok a p' ↔ ∃ b, step p.builder = .ok a b ∧ p' = { p with builder := b } := by
  unfold lift
  cases step p.builder with
  | ok a' b =>
    constructor
    · intro h
      cases h
      exact ⟨b, rfl, rfl⟩
    · rintro ⟨_, ⟨⟩, rfl⟩
      rfl
  | error fault b =>
    constructor
    · intro h
      cases h
    · rintro ⟨_, ⟨⟩, -⟩

/-- Only a hat begins a script. -/
theorem kind_of_trigger {r : Reader} {line : Line} {hat : Term} (h : r.instruction line = .trigger hat) :
    line.kind = .trigger := by
  unfold Reader.instruction at h
  split at h
  · assumption
  all_goals cases h

/-- A line without a hat is carried out by the builder of the current script. -/
theorem step_eq_ok_iff {o : Options} {line : Line} (hk : line.kind ≠ .trigger) {p p' : Progress} {u : Unit} :
    step o line p = .ok u p' ↔ p.building = true ∧
      ∃ b, perform o.ids line.number (o.reader.instruction line) { p.builder with
          events := p.builder.events.push (.line line.number line.kind.name line.text) } = .ok () b ∧
        p' = { p with builder := b } := by
  constructor
  · intro h
    obtain ⟨_, _, hreport, h⟩ := bind_eq_ok_iff.1 h
    cases hreport
    cases hi : o.reader.instruction line with
    | trigger hat => exact absurd (kind_of_trigger hi) hk
    | refuse fault =>
      rw [hi] at h
      obtain ⟨_, hthrow, -⟩ := lift_eq_ok_iff.1 h
      exact absurd hthrow throw_ne_ok
    | _ =>
      rw [hi] at h
      obtain ⟨_, _, hget, h⟩ := bind_eq_ok_iff.1 h
      cases hget
      by_cases hbuilding : p.building = true
      · rw [if_pos hbuilding] at h
        obtain ⟨b, hb, rfl⟩ := lift_eq_ok_iff.1 h
        exact ⟨hbuilding, b, hb, rfl⟩
      · rw [if_neg hbuilding] at h
        obtain ⟨_, hthrow, -⟩ := lift_eq_ok_iff.1 h
        exact absurd hthrow throw_ne_ok
  · rintro ⟨hbuilding, b, hb, rfl⟩
    refine bind_eq_ok_iff.2 ⟨(), _, rfl, ?_⟩
    cases hi : o.reader.instruction line with
    | trigger hat => exact absurd (kind_of_trigger hi) hk
    | refuse fault =>
      rw [hi] at hb
      exact absurd hb throw_ne_ok
    | _ =>
      rw [hi] at hb
      refine bind_eq_ok_iff.2 ⟨_, _, rfl, ?_⟩
      rw [if_pos hbuilding]
      exact lift_eq_ok_iff.2 ⟨b, hb, rfl⟩

end Compile

namespace Sketch

variable {o : Options}

/-- No id comes twice into a script of the sketch. -/
def Distinct (o : Options) (s : Sketch) : Prop :=
  Outline.Distinct o.reader o.ids 0 s.done ∧
    ∀ d, s.current = some d → (o.ids.span (Outline.sizes o.reader s.done) (d.size o.reader)).Nodup

/-- The state of compiling holds what has been read. -/
structure Held (o : Options) (s : Sketch) (p : Progress) : Prop where
  scripts : p.scripts = Outline.scripts o.reader o.ids 0 s.done
  readable : ∀ line ∈ s.lines, o.reader.isReadable line = true
  distinct : s.Distinct o
  building : p.building = s.current.isSome
  drawn : s.current = none → p.builder.drawn = Outline.sizes o.reader s.done
  built : ∀ d, s.current = some d →
    d.Built o.reader o.ids (Outline.sizes o.reader s.done) p.builder

theorem held_start : Held o start Progress.start where
  scripts := rfl
  readable _ hline := nomatch hline
  distinct := ⟨trivial, fun _ h => nomatch h⟩
  building := rfl
  drawn _ := rfl
  built _ h := nomatch h

theorem distinct_of_finished {s : Sketch} {done : List Outline} (hs : s.finished = some done)
    (h : Outline.Distinct o.reader o.ids 0 done) : s.Distinct o := by
  rcases cases_of_finished hs with rfl | ⟨done, hat, isTrigger, items, rfl, rfl⟩
  · exact ⟨h, fun _ hd => nomatch hd⟩
  · obtain ⟨hdone, hlast, -⟩ := (Outline.distinct_append 0 done _).1 h
    refine ⟨hdone, fun d hd => ?_⟩
    obtain rfl := Option.some.inj hd
    rw [Nat.zero_add] at hlast
    exact hlast

theorem Step.distinct {s t : Sketch} {line : Line} (h : Step s line t) (ht : t.Distinct o) : s.Distinct o := by
  cases h with
  | within step =>
    refine ⟨ht.1, fun d hd => ?_⟩
    obtain rfl := Option.some.inj hd
    refine (ht.2 _ rfl).sublist ?_
    obtain ⟨k, hk⟩ := Nat.exists_eq_add_of_le (step.size_le (r := o.reader))
    rw [hk, IdSource.span_add]
    exact List.sublist_append_left _ _
  | begin finished => exact distinct_of_finished finished ht.1

theorem Steps.distinct {s t : Sketch} {lines : List Line} (h : Steps s lines t) (ht : t.Distinct o) :
    s.Distinct o := by
  induction h with
  | nil => exact ht
  | cons step _ ih => exact step.distinct (ih ht)

namespace Held

variable {s t : Sketch} {p p' : Progress} {line : Line} {context : Option LineContext}

/-! ### The end of a script -/

private theorem finished (h : Held o s p) {done : List Outline} (hs : s.finished = some done) {scripts : List Script}
    {b : Builder} (hscripts : scripts = Outline.scripts o.reader o.ids 0 done)
    (hdrawn : b.drawn = Outline.sizes o.reader done) (hdistinct : Outline.Distinct o.reader o.ids 0 done) :
    Held o ⟨done, none⟩ ⟨scripts, false, b⟩ where
  scripts := hscripts
  readable line hline := h.readable line <| by
    rw [← allLines_of_finished hs]
    simpa [Sketch.lines] using hline
  distinct := ⟨hdistinct, fun _ hd => nomatch hd⟩
  building := rfl
  drawn _ := hdrawn
  built _ hd := nomatch hd

private theorem finish_current {done : List Outline} {hat : Line} {isTrigger : hat.kind = .trigger}
    {items : List Item} (h : Held o ⟨done, some ⟨hat, isTrigger, items, []⟩⟩ p) :
    ∃ p', Compile.finishScript context p = .ok () p' ∧ Held o ⟨done ++ [⟨hat, isTrigger, items⟩], none⟩ p' := by
  have hbuilt := h.built _ rfl
  obtain ⟨b, hfinish, hdrawn⟩ := hbuilt.finish_eq_ok fun line hline => h.readable line (by
    simp only [Outline.lines] at hline
    simp [Sketch.lines, Draft.lines, Frame.allLines, hline])
  have hsize : Outline.sizes o.reader (done ++ [⟨hat, isTrigger, items⟩]) =
      Outline.sizes o.reader done + Draft.size o.reader ⟨hat, isTrigger, items, []⟩ := by
    rw [Outline.sizes_append]
    rfl
  have hfinished : Compile.finishScript context p = .ok () ⟨p.scripts ++ [Outline.script o.reader o.ids
      (Outline.sizes o.reader done) ⟨hat, isTrigger, items⟩], false, b⟩ := by
    refine bind_eq_ok_iff.2 ⟨p, p, rfl, ?_⟩
    rw [h.building]
    exact bind_eq_ok_iff.2 ⟨_, _, Compile.lift_eq_ok_iff.2 ⟨b, hfinish, rfl⟩, rfl⟩
  refine ⟨_, hfinished, h.finished rfl ?_ ?_ ?_⟩
  · rw [Outline.scripts_append, ← h.scripts, Nat.zero_add]
    rfl
  · rw [hdrawn, hbuilt.drawn, hsize]
  · rw [Outline.distinct_append, Nat.zero_add]
    exact ⟨h.distinct.1, h.distinct.2 _ rfl, trivial⟩

theorem finishScript_of_finished (h : Held o s p) {done : List Outline} (hs : s.finished = some done) :
    ∃ p', Compile.finishScript context p = .ok () p' ∧ Held o ⟨done, none⟩ p' := by
  rcases cases_of_finished hs with rfl | ⟨done, hat, isTrigger, items, rfl, rfl⟩
  · refine ⟨p, bind_eq_ok_iff.2 ⟨p, p, rfl, ?_⟩, h⟩
    rw [h.building]
    rfl
  · exact h.finish_current

/-- A script that is completed has no open container. -/
theorem exists_finished (h : Held o s p) (hp : Compile.finishScript context p = .ok () p') :
    ∃ done, s.finished = some done ∧ Held o ⟨done, none⟩ p' := by
  have hfinished : ∃ done, s.finished = some done := by
    obtain ⟨done, current⟩ := s
    match current with
    | none => exact ⟨_, rfl⟩
    | some ⟨hat, isTrigger, items, []⟩ => exact ⟨_, rfl⟩
    | some ⟨hat, isTrigger, items, frame :: outer⟩ =>
      obtain ⟨_, _, hget, hp⟩ := bind_eq_ok_iff.1 hp
      cases hget
      rw [h.building] at hp
      obtain ⟨script, _, hlift, -⟩ := bind_eq_ok_iff.1 hp
      obtain ⟨b, hfinish, -⟩ := Compile.lift_eq_ok_iff.1 hlift
      exact absurd hfinish ((h.built _ rfl).finish_ne_ok script)
  obtain ⟨done, hs⟩ := hfinished
  obtain ⟨_, hp', hheld⟩ := @finishScript_of_finished _ _ _ context h _ hs
  rw [hp] at hp'
  obtain rfl := (EStateM.Result.ok.inj hp').2
  exact ⟨done, hs, hheld⟩

/-! ### The beginning of a script -/

private theorem begin_of_emit {done : List Outline} (h : Held o ⟨done, none⟩ p) (isTrigger : line.kind = .trigger)
    (hr : o.reader.isReadable line = true) {phrase : Phrase} (hphrase : o.reader.phrase line = phrase) {u : Unit}
    (hp : Compile.beginScript o.ids context phrase.term p = .ok u p') :
    Held o ⟨done, some ⟨line, isTrigger, [], []⟩⟩ p' := by
  obtain ⟨-, hfits⟩ := Reader.fits_trigger isTrigger hr
  rw [hphrase] at hfits
  obtain ⟨_, _, hmodify, hp⟩ := bind_eq_ok_iff.1 hp
  cases hmodify
  obtain ⟨id, hlift⟩ := discard_eq_ok_iff.1 hp
  obtain ⟨b, hemit, rfl⟩ := Compile.lift_eq_ok_iff.1 hlift
  obtain ⟨hid, -, hsound, hgrows⟩ := phrase.term.emit_grows o.ids none (Builder.sound_empty _ _) hemit
  have hdrawn : (Builder.empty p.builder.drawn p.builder.events).drawn = Outline.sizes o.reader done := h.drawn rfl
  rw [hdrawn] at hid hgrows
  have hsize : Draft.size o.reader ⟨line, isTrigger, [], []⟩ = phrase.size := by
    rw [← hphrase]
    rfl
  have hbuilt : Draft.Built o.reader o.ids (Outline.sizes o.reader done) ⟨line, isTrigger, [], []⟩ b := by
    refine ⟨?_, ?_, hsound.nodup, ?_, hgrows.openBodies, ?_⟩
    · rw [hgrows.drawn, hdrawn, hsize, Phrase.size_term]
    · rw [hgrows.issued, hdrawn, hsize, Phrase.size_term]
      rfl
    · rw [hgrows.arena, Phrase.blocks_term, ← hphrase]
      rfl
    · rw [Term.top_of_emit hfits.shape hemit, hid]
  -- the sketch now has the new line, and its draft is held by the new builder
  refine ⟨h.scripts, ?_, ⟨h.distinct.1, ?_⟩, rfl, (fun hd => nomatch hd), ?_⟩
  · intro l hl
    have hmem : l ∈ Outline.allLines done ∨ l = line := by
      simpa [Sketch.lines, Draft.lines, Item.allLines, Frame.allLines] using hl
    rcases hmem with hmem | rfl
    · exact h.readable l (by simpa [Sketch.lines] using hmem)
    · exact hr
  · intro d hd
    obtain rfl := Option.some.inj hd
    exact hbuilt.issued ▸ hbuilt.nodup
  · intro d hd
    obtain rfl := Option.some.inj hd
    exact hbuilt

/-! ### Lines -/

theorem of_events (h : Held o s p) (events : Array Event) :
    Held o s { p with builder := { p.builder with events := events } } where
  scripts := h.scripts
  readable := h.readable
  distinct := h.distinct
  building := h.building
  drawn := h.drawn
  built d hd := by
    obtain ⟨hdrawn, hissued, hnodup, harena, hbodies, htop⟩ := h.built d hd
    exact ⟨hdrawn, hissued, hnodup, harena, hbodies, htop⟩

private theorem within {done : List Outline} {d d' : Draft} {b : Builder} (h : Held o ⟨done, some d⟩ p)
    (hstep : d.Step line d') (hr : o.reader.isReadable line = true)
    (hb : d'.Built o.reader o.ids (Outline.sizes o.reader done) b) :
    Held o ⟨done, some d'⟩ { p with builder := b } := by
  refine ⟨h.scripts, ?_, ⟨h.distinct.1, ?_⟩, h.building, (fun hd => nomatch hd), ?_⟩
  · intro l hl
    rw [Step.lines (.within hstep), List.mem_append, List.mem_singleton] at hl
    rcases hl with hl | rfl
    · exact h.readable l hl
    · exact hr
  · intro d hd
    obtain rfl := Option.some.inj hd
    exact hb.issued ▸ hb.nodup
  · intro d hd
    obtain rfl := Option.some.inj hd
    exact hb

/-- A line that compiles takes what has been read further. -/
theorem exists_step (h : Held o s p) {u : Unit} (hp : Compile.step o line p = .ok u p') :
    ∃ t, Step s line t ∧ o.reader.isReadable line = true ∧ Held o t p' := by
  by_cases hk : line.kind = .trigger
  · obtain ⟨_, _, hreport, hp⟩ := bind_eq_ok_iff.1 hp
    cases hreport
    have hi := Reader.instruction_trigger (r := o.reader) hk
    rw [hi] at hp
    obtain ⟨_, p₁, hfinish, hbegin⟩ := bind_eq_ok_iff.1 hp
    obtain ⟨done, hs, hheld⟩ := (h.of_events _).exists_finished hfinish
    have hr : o.reader.isReadable line = true := by
      obtain ⟨_, _, hmodify, hemit⟩ := bind_eq_ok_iff.1 hbegin
      cases hmodify
      obtain ⟨id, hlift⟩ := discard_eq_ok_iff.1 hemit
      obtain ⟨b, hemit, -⟩ := Compile.lift_eq_ok_iff.1 hlift
      rw [Reader.isReadable, hi]
      exact (Term.emit_grows o.ids none _ (Builder.sound_empty _ _) hemit).2.1
    have hterm := (Reader.fits_trigger hk hr).1
    rw [hi] at hterm
    rw [Instruction.trigger.inj hterm] at hbegin
    exact ⟨_, .begin hs line hk, hr, hheld.begin_of_emit hk hr rfl hbegin⟩
  · obtain ⟨hbuilding, b, hperform, rfl⟩ := (Compile.step_eq_ok_iff hk).1 hp
    obtain ⟨done, current⟩ := s
    cases current with
    | none =>
      rw [h.building] at hbuilding
      cases hbuilding
    | some d =>
      obtain ⟨d', hstep, hr, hb⟩ := ((h.of_events _).built d rfl).exists_step hk hperform
      exact ⟨_, .within hstep, hr, h.within hstep hr hb⟩

/-- A line that can be read compiles if it takes what has been read further without an id coming twice. -/
theorem step_of_step (h : Held o s p) (hstep : Step s line t) (hr : o.reader.isReadable line = true)
    (ht : t.Distinct o) : ∃ p', Compile.step o line p = .ok () p' ∧ Held o t p' := by
  cases hstep with
  | @begin _ done hs _ hk =>
    obtain ⟨hi, hfits⟩ := Reader.fits_trigger hk hr
    obtain ⟨p₁, hfinish, hheld⟩ := @finishScript_of_finished _ _ _
      (some ⟨line.number, String.ofList line.text⟩) (h.of_events _) _ hs
    have hn : ((Builder.empty p₁.builder.drawn p₁.builder.events).issued ++
        o.ids.span (Builder.empty p₁.builder.drawn p₁.builder.events).drawn (o.reader.phrase line).term.size).Nodup := by
      rw [show (Builder.empty p₁.builder.drawn p₁.builder.events).drawn = _ from hheld.drawn rfl]
      exact ht.2 _ rfl
    obtain ⟨id, b, hemit⟩ := (o.reader.phrase line).term.emit_of_isComplete o.ids none hfits.complete
      (Builder.sound_empty _ _) hn
    have hbegin : Compile.beginScript o.ids (some ⟨line.number, String.ofList line.text⟩)
        (o.reader.phrase line).term p₁ = .ok () { p₁ with building := true, builder := b } :=
      bind_eq_ok_iff.2 ⟨(), _, rfl, discard_eq_ok_iff.2 ⟨id, Compile.lift_eq_ok_iff.2 ⟨b, hemit, rfl⟩⟩⟩
    refine ⟨_, bind_eq_ok_iff.2 ⟨(), _, rfl, ?_⟩, hheld.begin_of_emit hk hr rfl hbegin⟩
    rw [hi]
    exact bind_eq_ok_iff.2 ⟨(), p₁, hfinish, hbegin⟩
  | @within done d d' _ hstep =>
    obtain ⟨b, hperform, hb⟩ := ((h.of_events _).built d rfl).perform_of_step hstep hr (ht.2 _ rfl)
    exact ⟨_, (Compile.step_eq_ok_iff hstep.kind_ne_trigger).2 ⟨h.building, b, hperform, rfl⟩,
      h.within hstep hr hb⟩

end Held

end Sketch

namespace Compile

variable {o : Options}

/-! ### All lines -/

private theorem run_of_held {s : Sketch} {p p' : Progress} {lines : List Line} {fin : Line} {scripts : List Script}
    (h : s.Held o p) (hfin : fin.kind = .finish) (hlines : ∀ line ∈ lines, line.kind ≠ .finish)
    (hp : run o (lines ++ [fin]) p = .ok scripts p') :
    ∃ t outlines, Sketch.Steps s lines t ∧ t.finished = some outlines ∧
      scripts = Outline.scripts o.reader o.ids 0 outlines ∧
      (∀ line ∈ t.lines, o.reader.isReadable line = true) ∧ Outline.Distinct o.reader o.ids 0 outlines ∧
      p'.builder.drawn = Outline.sizes o.reader outlines := by
  -- on the lines that are left; `Held` is the invariant
  induction lines generalizing s p with
  | nil =>
    rw [List.nil_append, run, if_pos hfin] at hp
    obtain ⟨_, p₁, hfinish, hp⟩ := bind_eq_ok_iff.1 hp
    cases hp
    obtain ⟨outlines, hs, hheld⟩ := h.exists_finished hfinish
    exact ⟨s, outlines, .nil s, hs, hheld.scripts, h.readable, hheld.distinct.1, hheld.drawn rfl⟩
  | cons line lines ih =>
    rw [List.cons_append, run, if_neg (hlines line (by simp))] at hp
    obtain ⟨_, p₁, hstep, hp⟩ := bind_eq_ok_iff.1 hp
    obtain ⟨t, hst, -, hheld⟩ := h.exists_step hstep
    obtain ⟨u, outlines, hsteps, hrest⟩ := ih hheld (fun l hl => hlines l (List.mem_cons_of_mem _ hl)) hp
    exact ⟨u, outlines, .cons hst hsteps, hrest⟩

private theorem run_of_steps {s t : Sketch} {p : Progress} {lines : List Line} {fin : Line}
    {outlines : List Outline} (h : s.Held o p) (hfin : fin.kind = .finish)
    (hlines : ∀ line ∈ lines, line.kind ≠ .finish) (hsteps : Sketch.Steps s lines t)
    (ht : t.finished = some outlines) (hr : ∀ line ∈ lines, o.reader.isReadable line = true)
    (hdistinct : t.Distinct o) :
    ∃ p', run o (lines ++ [fin]) p = .ok (Outline.scripts o.reader o.ids 0 outlines) p' := by
  induction hsteps generalizing p with
  | nil s =>
    obtain ⟨p', hfinish, hheld⟩ := @Sketch.Held.finishScript_of_finished _ _ _ none h _ ht
    refine ⟨p', ?_⟩
    rw [List.nil_append, run, if_pos hfin, ← hheld.scripts]
    exact bind_eq_ok_iff.2 ⟨(), p', hfinish, rfl⟩
  | @cons _ _ _ line lines hstep hsteps ih =>
    obtain ⟨p₁, hp₁, hheld⟩ := h.step_of_step hstep (hr line (by simp)) (hsteps.distinct hdistinct)
    obtain ⟨p', hp'⟩ := ih hheld (fun l hl => hlines l (List.mem_cons_of_mem _ hl)) ht
      (fun l hl => hr l (List.mem_cons_of_mem _ hl)) hdistinct
    refine ⟨p', ?_⟩
    rw [List.cons_append, run, if_neg (hlines line (by simp))]
    exact bind_eq_ok_iff.2 ⟨(), p₁, hp₁, hp'⟩

/-- If some lines compile, they are the lines of scripts, can all be read, and give the blocks of these scripts.  As
many ids are drawn as the scripts have blocks. -/
theorem exists_outlines_of_run {lines : List Line} {fin : Line} {scripts : List Script} {p : Progress}
    (hfin : fin.kind = .finish) (hlines : ∀ line ∈ lines, line.kind ≠ .finish)
    (hp : run o (lines ++ [fin]) Progress.start = .ok scripts p) :
    ∃ outlines, Outline.allLines outlines = lines ∧ scripts = Outline.scripts o.reader o.ids 0 outlines ∧
      (∀ line ∈ lines, o.reader.isReadable line = true) ∧ Outline.Distinct o.reader o.ids 0 outlines ∧
      p.builder.drawn = Outline.sizes o.reader outlines := by
  obtain ⟨t, outlines, hsteps, ht, hscripts, hr, hdistinct, hdrawn⟩ := run_of_held Sketch.held_start hfin hlines hp
  refine ⟨outlines, hsteps.allLines_of_finished ht, hscripts, fun line hline => hr line ?_, hdistinct, hdrawn⟩
  rw [hsteps.lines]
  exact List.mem_append_right _ hline

/-- The lines of scripts compile if they can all be read and no id comes twice into a script. -/
theorem run_of_outlines {outlines : List Outline} {fin : Line} (hfin : fin.kind = .finish)
    (hlines : ∀ line ∈ Outline.allLines outlines, line.kind ≠ .finish)
    (hr : ∀ line ∈ Outline.allLines outlines, o.reader.isReadable line = true)
    (hdistinct : Outline.Distinct o.reader o.ids 0 outlines) :
    ∃ p, run o (Outline.allLines outlines ++ [fin]) Progress.start =
      .ok (Outline.scripts o.reader o.ids 0 outlines) p := by
  obtain ⟨t, hsteps, ht⟩ := Sketch.steps_allLines outlines (s := Sketch.start) rfl
  exact run_of_steps Sketch.held_start hfin hlines hsteps ht hr (Sketch.distinct_of_finished ht hdistinct)

end Compile

end BlockScript
