import BlockScript.Proofs.Layout.Draft

/-!
# Blocks and their lines

Each block of a script comes from a line (`Outline.exists_line_of_mem`): it is the block of the line itself, or one of
those below its arguments.  The block of a line keeps the fields of the phrase wherever it stands and whatever bodies
it gets, and each statement of a script has its block (`Outline.exists_mem_of_statement`).
-/

namespace BlockScript

/-- What is true of the block of a line that stands alone and stays true wherever the block is put and whatever bodies
it gets. -/
structure Line.Lasts (r : Reader) (ids : IdSource) (P : Line → Block → Prop) : Prop where
  block : ∀ line n, P line ((r.phrase line).block ids n)
  placed : ∀ line b parent next, P line b → P line (b.placed parent next)
  withBody : ∀ line b slot first?, P line b → P line (b.withBody slot first?)
  /-- A second body changes the operation of an `if`. -/
  otherwise : ∀ line b, line.kind = .ifThen → P line b → P line { b with opcode := Operation.ifElse.opcode }

/-- The block is that of a line itself.  Where it stands is left open, and so are its bodies. -/
structure Block.IsOf (b : Block) (r : Reader) (line : Line) : Prop where
  shadow : b.shadow = false
  shape : b.shape = (r.phrase line).op.shape
  fields : b.fields = (r.phrase line).arguments.fields
  /-- Another body changes the operation of an `if`. -/
  opcode : line.kind ≠ .ifThen → b.opcode = (r.phrase line).op.opcode

/-- The block is that of a line or stands below its arguments. -/
def Block.ComesFrom (b : Block) (r : Reader) (ids : IdSource) (line : Line) : Prop :=
  b.IsOf r line ∨ ∃ n, b ∈ (r.phrase line).before ids n

variable {r : Reader} {ids : IdSource}

theorem Block.isOf_lasts : Line.Lasts r ids fun line b => b.IsOf r line where
  block _ _ := ⟨rfl, rfl, rfl, fun _ => rfl⟩
  placed _ _ _ _ hof := ⟨hof.shadow, hof.shape, hof.fields, hof.opcode⟩
  withBody line b slot first? hof := by
    cases first? with
    | none => exact hof
    | some first => exact ⟨hof.shadow, hof.shape, hof.fields, hof.opcode⟩
  otherwise _ _ isIf hof := ⟨hof.shadow, hof.shape, hof.fields, fun hk => absurd isIf hk⟩

namespace Item

variable {P : Line → Block → Prop}

theorem lasts_block (h : Line.Lasts r ids P) (n : Nat) (parent next : Option BlockId) (item : Item) :
    P item.opener ((item.block r ids n).placed parent next) := by
  refine h.placed _ _ _ _ ?_
  cases item with
  | statement => exact h.block _ n
  | enclosed => exact h.withBody _ _ _ _ (h.block _ n)
  | forked opener isIf => exact h.withBody _ _ _ _ (h.otherwise _ _ isIf (h.withBody _ _ _ _ (h.block _ n)))

private theorem ne_of_opens {line opener : Line} (hk : line.kind = .statement) (opens : opener.kind.opens = true) :
    line ≠ opener := by
  rintro rfl
  rw [hk] at opens
  cases opens

private theorem ne_of_kind {line other : Line} {kind : LineKind} (hk : line.kind = .statement)
    (hother : other.kind = kind) (hkind : kind ≠ .statement) : line ≠ other := by
  rintro rfl
  exact hkind (hother.symm.trans hk)

mutual

theorem exists_mem_of_statement (n : Nat) (parent next : Option BlockId) {line : Line} (hk : line.kind = .statement) :
    (item : Item) → line ∈ item.lines → ∃ b ∈ item.blocks r ids n parent next, b.IsOf r line
  | .statement line' isStatement, hline => by
    obtain rfl : line = line' := by simpa [lines] using hline
    have hof : ((block r ids n (.statement line isStatement)).placed parent next).IsOf r line :=
      lasts_block Block.isOf_lasts n parent next _
    exact ⟨_, List.mem_append_right _ List.mem_cons_self, hof⟩
  | .enclosed opener opens body closer closes, hline => by
    have hbody : line ∈ allLines body := by
      simpa [lines, ne_of_opens hk opens, ne_of_kind hk closes (by decide)] using hline
    rw [blocks, inside]
    obtain ⟨b, hb, hof⟩ := exists_mem_chained_of_statement _ _ hk body hbody
    exact ⟨b, List.mem_append_right _ (List.mem_cons_of_mem _ hb), hof⟩
  | .forked opener isIf body middle isElse alternative closer closes, hline => by
    have hbodies : line ∈ allLines body ∨ line ∈ allLines alternative := by
      simpa [lines, ne_of_kind hk isIf (by decide), ne_of_kind hk isElse (by decide),
        ne_of_kind hk closes (by decide)] using hline
    rw [blocks, inside]
    rcases hbodies with hbody | halternative
    · obtain ⟨b, hb, hof⟩ := exists_mem_chained_of_statement _ _ hk body hbody
      exact ⟨b, List.mem_append_right _ (List.mem_cons_of_mem _ (List.mem_append_left _ hb)), hof⟩
    · obtain ⟨b, hb, hof⟩ := exists_mem_chained_of_statement _ _ hk alternative halternative
      exact ⟨b, List.mem_append_right _ (List.mem_cons_of_mem _ (List.mem_append_right _ hb)), hof⟩

theorem exists_mem_chained_of_statement (n : Nat) (parent : Option BlockId) {line : Line}
    (hk : line.kind = .statement) : (items : List Item) → line ∈ allLines items →
      ∃ b ∈ chained r ids n parent items, b.IsOf r line
  | [], hline => by cases hline
  | item :: rest, hline => by
    rw [allLines, List.mem_append] at hline
    rw [chained_cons]
    rcases hline with hline | hline
    · obtain ⟨b, hb, hof⟩ := exists_mem_of_statement n parent (first? ids (n + item.size r) rest) hk item hline
      exact ⟨b, List.mem_append_left _ hb, hof⟩
    · obtain ⟨b, hb, hof⟩ := exists_mem_chained_of_statement _ _ hk rest hline
      exact ⟨b, List.mem_append_right _ hb, hof⟩

end

end Item

namespace Outline

/-- What lasts is true of each block of a script that does not stand below the arguments of a line. -/
theorem exists_line_of_lasts {P : Line → Block → Prop} (h : Line.Lasts r ids P) {n : Nat} {o : Outline} {b : Block}
    (hb : b ∈ o.blocks r ids n) : ∃ line ∈ o.lines, P line b ∨ ∃ k, b ∈ (r.phrase line).before ids k := by
  have hgrants : Item.Grants r ids (· ∈ o.lines) (fun _ => True)
      fun b => ∃ line ∈ o.lines, P line b ∨ ∃ k, b ∈ (r.phrase line).before ids k := by
    constructor
    case before =>
      intro n parent item rest hlines _ c hc
      exact ⟨_, (Item.forall_allLines_cons.1 hlines).1 _ item.opener_mem_lines, .inr ⟨n, hc⟩⟩
    case block =>
      intro n parent item rest hlines _
      exact ⟨_, (Item.forall_allLines_cons.1 hlines).1 _ item.opener_mem_lines,
        .inl (Item.lasts_block h n parent _ item)⟩
  refine forall_blocks hgrants (fun line hline => hline) (fun _ _ => trivial) (fun c hc => ?_) ?_ b hb
  · exact ⟨o.hat, List.mem_cons_self, .inr ⟨n, hc⟩⟩
  · exact ⟨o.hat, List.mem_cons_self, .inl (h.placed _ _ _ _ (h.block o.hat n))⟩

/-- Each block of a script comes from one of its lines. -/
theorem exists_line_of_mem {n : Nat} {o : Outline} {b : Block} (hb : b ∈ o.blocks r ids n) :
    ∃ line ∈ o.lines, b.ComesFrom r ids line :=
  exists_line_of_lasts Block.isOf_lasts hb

/-- Each statement of a script has its block there. -/
theorem exists_mem_of_statement {n : Nat} {o : Outline} {line : Line} (hk : line.kind = .statement)
    (hline : line ∈ o.lines) : ∃ b ∈ o.blocks r ids n, b.IsOf r line := by
  have hitems : line ∈ Item.allLines o.items := by
    rcases List.mem_cons.1 hline with rfl | hline
    · have := o.isTrigger.symm.trans hk
      cases this
    · exact hline
  obtain ⟨b, hb, hof⟩ := Item.exists_mem_chained_of_statement _ _ hk o.items hitems
  exact ⟨b, List.mem_append_right _ (List.mem_cons_of_mem _ hb), hof⟩

end Outline

end BlockScript
