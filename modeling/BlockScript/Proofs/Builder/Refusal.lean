import BlockScript.Proofs.Builder.Finish
import BlockScript.Proofs.Outline.Reading

/-!
# What the builder refuses

When ids are all different, the builder refuses a line with the fault with which the grammar refuses it
(`Draft.Built.exists_perform_error`), and it refuses to end a script inside of a container
(`Draft.Built.finish_eq_error`).
-/

namespace BlockScript

variable {r : Reader} {ids : IdSource}

theorem Frame.opcode_block (n : Nat) (frame : Frame) : (frame.block r ids n).opcode = frame.opcode := by
  cases frame with
  | first opener opens items => exact congrArg Operation.opcode (Reader.op_phrase_opener opens)
  | second => rfl

namespace Draft.Built

variable {n : Nat} {d d' : Draft} {b b' : Builder} {line : Line} {fault : Fault}

/-- The builder of a draft has drawn all its ids from one source. -/
theorem drew (h : Built r ids n d b) : b.Drew ids := by
  intro id hid
  rw [h.issued] at hid
  obtain ⟨k, hk, rfl⟩ := List.mem_map.1 hid
  obtain ⟨-, hlt⟩ := List.mem_range'_1.1 hk
  exact ⟨k, h.drawn ▸ hlt, rfl⟩

section Frames

variable {hat : Line} {isTrigger : hat.kind = .trigger} {items : List Item} {frame : Frame} {outer : List Frame}

/-- The builder of a draft with an open container has its body and its block at hand. -/
theorem exists_body (h : Built r ids n ⟨hat, isTrigger, items, frame :: outer⟩ b) :
    ∃ body bodies c, b.openBodies = body :: bodies ∧ body.line = frame.line.number ∧ body.slot = frame.slot ∧
      Build.block body.container b = .ok c b ∧ c.opcode = frame.opcode :=
  ⟨_, _, _, h.openBodies.trans (bodies_cons rfl), rfl, rfl,
    Build.block_eq_ok_iff.2 ⟨h.get?_container rfl, rfl⟩, frame.opcode_block _⟩

/-- A script does not end inside of a container. -/
theorem finish_eq_error (h : Built r ids n ⟨hat, isTrigger, items, frame :: outer⟩ b) :
    Build.finish b = .error (.neverClosed frame.opcode frame.line.number) b := by
  obtain ⟨body, bodies, c, hbodies, hline, -, hblock, hopcode⟩ := h.exists_body
  refine bind_eq_error (t := b) rfl ?_
  rw [hbodies]
  refine bind_eq_error hblock ?_
  rw [hopcode, hline]
  rfl

private theorem openSecondBody_eq_error (h : Built r ids n ⟨hat, isTrigger, items, frame :: outer⟩ b) {number : Int}
    (hframe : ¬ (frame.opcode = Operation.ifThen.opcode ∧ frame.slot = Script.firstBody)) :
    Build.openSecondBody .ifElse number b = .error (.elseInside frame.opcode) b := by
  obtain ⟨body, bodies, c, hbodies, -, hslot, hblock, hopcode⟩ := h.exists_body
  refine bind_eq_error (t := b) rfl ?_
  rw [hbodies]
  refine bind_eq_error hblock ?_
  rw [if_neg (by simpa [hopcode, hslot] using hframe), hopcode]
  rfl

end Frames

private theorem openSecondBody_of_fork (h : Built r ids n d b) (isElse : line.kind = .otherwise)
    (hfork : d.fork line isElse = .error fault) {number : Int} :
    Build.openSecondBody .ifElse number b = .error fault b := by
  obtain ⟨hat, isTrigger, items, frames⟩ := d
  match frames, h, hfork with
  | [], h, hfork =>
    cases hfork
    refine bind_eq_error (t := b) rfl ?_
    rw [h.openBodies]
    rfl
  | .first opener opens body :: outer, h, hfork =>
    change dite (opener.kind = .ifThen) _ _ = _ at hfork
    split_ifs at hfork with isIf
    cases hfork
    apply h.openSecondBody_eq_error
    rw [← @Frame.opcode_block r ids n]
    exact fun hif => isIf ((opcode_opener opens).1 hif.1)
  | .second opener isIf body middle isElse items :: outer, h, hfork =>
    cases hfork
    exact h.openSecondBody_eq_error fun hif =>
      absurd hif.1 (show Operation.ifElse.opcode ≠ Operation.ifThen.opcode by decide)

private theorem closeBody_of_leave (h : Built r ids n d b) (closes : line.kind = .close)
    (hleave : d.leave line closes = .error fault) : Build.closeBody b = .error fault b := by
  obtain ⟨hat, isTrigger, items, frames⟩ := d
  match frames, h, hleave with
  | [], h, hleave =>
    cases hleave
    refine bind_eq_error (t := b) rfl ?_
    rw [h.openBodies]
    rfl
  | frame :: outer, h, hleave => cases hleave

/-- The builder refuses a line with the fault with which the grammar refuses it. -/
theorem exists_perform_error (h : Built r ids n d b) (hids : Function.Injective ids)
    (hadvance : d.advance r line = .error fault) (hk : line.kind ≠ .trigger) :
    ∃ b', Compile.perform ids line.number (r.instruction line) b = .error fault b' := by
  by_cases opens : line.kind.opens = true
  · obtain ⟨values, hi⟩ := Reader.instruction_opener (r := r) opens
    rw [advance_opener opens, Reader.reading_eq_error_iff, Reader.faults, hi] at hadvance
    obtain ⟨b', hemit⟩ := Term.exists_emit_error hids none h.drew hadvance
    rw [hi]
    exact ⟨b', bind_eq_error_of_error hemit⟩
  cases hkind : line.kind with
  | trigger => exact absurd hkind hk
  | statement =>
    have hi := Reader.instruction_statement (r := r) hkind
    rw [advance_statement hkind, Reader.reading_eq_error_iff, Reader.faults, hi] at hadvance
    obtain ⟨b', hemit⟩ := Term.exists_emit_error hids none h.drew hadvance
    rw [hi]
    exact ⟨b', bind_eq_error_of_error hemit⟩
  | «otherwise» =>
    rw [advance_otherwise hkind] at hadvance
    rw [Reader.instruction_otherwise hkind]
    exact ⟨b, discard_eq_error (h.openSecondBody_of_fork hkind hadvance)⟩
  | close =>
    rw [advance_close hkind] at hadvance
    rw [Reader.instruction_close hkind]
    exact ⟨b, discard_eq_error (h.closeBody_of_leave hkind hadvance)⟩
  | finish =>
    obtain rfl : .missingKey line.kind.name = fault := by
      simpa [advance, hkind, LineKind.opens] using hadvance
    rw [Reader.instruction, hkind]
    exact ⟨b, rfl⟩
  | other name =>
    obtain rfl : .missingKey line.kind.name = fault := by
      simpa [advance, hkind, LineKind.opens] using hadvance
    rw [Reader.instruction, hkind]
    exact ⟨b, rfl⟩
  | _ => exact absurd (by rw [hkind]; rfl) opens

end Draft.Built

end BlockScript
