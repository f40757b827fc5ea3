import BlockScript.Line.Kind

/-!
# The grammar of scripts

A source is a sequence of scripts, each a `when` line with items below it.  An item is a statement, or a container
with the items of its body between the line that opens it and an `end`; an `if` can have a second body behind an
`else`.  An outline is a script read by this grammar: the kinds of its lines are right by construction, and
`Outline.lines` gives the lines in the order of the source.
-/

namespace BlockScript

/-- Whether the lines of a kind open a container. -/
def LineKind.opens : LineKind → Bool
  | forever => true
  | repeatTimes => true
  | repeatUntil => true
  | ifThen => true
  | _ => false

/-- An item of a script. -/
inductive Item where
  | statement (line : Line) (isStatement : line.kind = .statement)
  /-- A container with one body. -/
  | enclosed (opener : Line) (opens : opener.kind.opens = true) (body : List Item)
      (closer : Line) (closes : closer.kind = .close)
  /-- An `if` with two bodies. -/
  | forked (opener : Line) (isIf : opener.kind = .ifThen) (body : List Item)
      (middle : Line) (isElse : middle.kind = .otherwise) (alternative : List Item)
      (closer : Line) (closes : closer.kind = .close)

/-- A script by its lines. -/
structure Outline where
  hat : Line
  isTrigger : hat.kind = .trigger
  items : List Item

mutual

/-- The lines of an item. -/
def Item.lines : Item → List Line
  | .statement line _ => [line]
  | .enclosed opener _ body closer _ => opener :: (Item.allLines body ++ [closer])
  | .forked opener _ body middle _ alternative closer _ =>
    opener :: (Item.allLines body ++ middle :: (Item.allLines alternative ++ [closer]))

/-- The lines of some items. -/
def Item.allLines : List Item → List Line
  | [] => []
  | item :: rest => item.lines ++ Item.allLines rest

end

theorem Item.allLines_append (items items' : List Item) :
    Item.allLines (items ++ items') = Item.allLines items ++ Item.allLines items' := by
  induction items with
  | nil => rfl
  | cons item items ih => rw [List.cons_append, Item.allLines, ih, Item.allLines, List.append_assoc]

namespace Outline

/-- The lines of a script. -/
def lines (o : Outline) : List Line :=
  o.hat :: Item.allLines o.items

/-- The lines of some scripts. -/
def allLines (outlines : List Outline) : List Line :=
  outlines.flatMap lines

end Outline

/-! ### What holds of all lines -/

section ForAll

variable {P : Line → Prop}

theorem Item.forall_allLines_cons {item : Item} {rest : List Item} :
    (∀ line ∈ allLines (item :: rest), P line) ↔
      (∀ line ∈ item.lines, P line) ∧ ∀ line ∈ allLines rest, P line := by
  rw [allLines]
  exact List.forall_mem_append

theorem Item.forall_of_enclosed {opener : Line} {opens : opener.kind.opens = true} {body : List Item} {closer : Line}
    {closes : closer.kind = .close} (h : ∀ line ∈ (enclosed opener opens body closer closes).lines, P line) :
    ∀ line ∈ allLines body, P line := by
  intro line hline
  exact h line (by simp [lines, hline])

theorem Item.forall_of_forked {opener : Line} {isIf : opener.kind = .ifThen} {body : List Item} {middle : Line}
    {isElse : middle.kind = .otherwise} {alternative : List Item} {closer : Line} {closes : closer.kind = .close}
    (h : ∀ line ∈ (forked opener isIf body middle isElse alternative closer closes).lines, P line) :
    (∀ line ∈ allLines body, P line) ∧ ∀ line ∈ allLines alternative, P line := by
  constructor
  · intro line hline
    exact h line (by simp [lines, hline])
  · intro line hline
    exact h line (by simp [lines, hline])

theorem Outline.forall_lines {o : Outline} :
    (∀ line ∈ o.lines, P line) ↔ P o.hat ∧ ∀ line ∈ Item.allLines o.items, P line :=
  List.forall_mem_cons

theorem Outline.forall_allLines_cons {o : Outline} {rest : List Outline} :
    (∀ line ∈ allLines (o :: rest), P line) ↔ (∀ line ∈ o.lines, P line) ∧ ∀ line ∈ allLines rest, P line :=
  List.forall_mem_append

theorem Outline.forall_lines_of_mem {o : Outline} {outlines : List Outline} (h : ∀ line ∈ allLines outlines, P line)
    (ho : o ∈ outlines) : ∀ line ∈ o.lines, P line :=
  fun line hline => h line (List.mem_flatMap.2 ⟨o, ho, hline⟩)

end ForAll

/-! ### Hats -/

private theorem Item.filter_append_singleton {lines : List Line} {line : Line}
    (hlines : lines.filter (·.kind = .trigger) = []) (hk : line.kind ≠ .trigger) :
    (lines ++ [line]).filter (·.kind = .trigger) = [] := by
  rw [List.filter_append, hlines]
  simp [hk]

mutual

private theorem Item.filter_lines : (item : Item) → item.lines.filter (·.kind = .trigger) = []
  | .statement line isStatement => by simp [Item.lines, isStatement]
  | .enclosed opener opens body closer closes => by
    have hopener : opener.kind ≠ .trigger := by
      intro hk
      rw [hk] at opens
      cases opens
    rw [Item.lines, List.filter_cons_of_neg (by simpa using hopener)]
    exact Item.filter_append_singleton (Item.filter_allLines body) (by rw [closes]; decide)
  | .forked opener isIf body middle isElse alternative closer closes => by
    rw [Item.lines, List.filter_cons_of_neg (by simp [isIf]), List.filter_append, Item.filter_allLines body,
      List.nil_append, List.filter_cons_of_neg (by simp [isElse])]
    exact Item.filter_append_singleton (Item.filter_allLines alternative) (by rw [closes]; decide)

private theorem Item.filter_allLines : (items : List Item) → (Item.allLines items).filter (·.kind = .trigger) = []
  | [] => rfl
  | item :: rest => by rw [Item.allLines, List.filter_append, Item.filter_lines item, Item.filter_allLines rest]; rfl

end

/-- The hats of scripts are the `when` lines among their lines. -/
theorem Outline.map_hat (outlines : List Outline) :
    outlines.map hat = (allLines outlines).filter (·.kind = .trigger) := by
  induction outlines with
  | nil => rfl
  | cons o outlines ih =>
    have hlines : allLines (o :: outlines) = o.hat :: (Item.allLines o.items ++ allLines outlines) := rfl
    rw [List.map_cons, ih, hlines, List.filter_cons_of_pos (by simp [o.isTrigger]), List.filter_append,
      Item.filter_allLines, List.nil_append]

end BlockScript
