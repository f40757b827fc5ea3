import BlockScript.Proofs.Layout.Draft

/-!
# The order of the blocks of a script

Ids are drawn in the order in which a script is read, and the id of a block is drawn before those of the blocks that
it holds or that follow it.  So the parent of a block always has an id from an earlier place of the id source
(`Outline.isUnder_blocks`), and only the hat has no parent.
-/

namespace BlockScript

variable {r : Reader} {ids : IdSource}

/-- The id of the block was drawn at one of the places from `first` to before `last`, and that of its parent at an
earlier one of them. -/
def Block.IsUnder (ids : IdSource) (first last : Nat) (b : Block) : Prop :=
  ∃ i j, first ≤ i ∧ i < j ∧ j < last ∧ b.id = ids j ∧ b.parent = some (ids i)

theorem Block.IsUnder.mono {b : Block} {first last first' last' : Nat} (h : b.IsUnder ids first last)
    (hfirst : first' ≤ first) (hlast : last ≤ last') : b.IsUnder ids first' last' := by
  obtain ⟨i, j, hi, hij, hj, hid, hparent⟩ := h
  exact ⟨i, j, by omega, hij, by omega, hid, hparent⟩

/-! ### Terms -/

mutual

/-- The blocks of a term at place `n` are under the block at place `m`. -/
theorem Term.isUnder_blocks {m n : Nat} (h : m < n) :
    (t : Term) → ∀ b ∈ t.blocks ids n (some (ids m)), b.IsUnder ids m (n + t.size)
  | .apply op arguments => by
    intro b hb
    rw [Term.blocks, List.mem_append, List.mem_singleton] at hb
    rw [Term.size]
    rcases hb with hb | rfl
    · have hunder := arguments.isUnder_blocks (Nat.lt_succ_self n) b hb
      exact hunder.mono (by omega) (by omega)
    · exact ⟨m, n, by omega, h, by omega, rfl, rfl⟩
  | .noted _ term => by
    rw [Term.blocks, Term.size]
    exact term.isUnder_blocks h
  | .unreadable _ => by
    intro b hb
    cases hb

theorem Argument.isUnder_blocks {m n : Nat} (h : m < n) :
    (v : Argument) → ∀ b ∈ v.blocks ids n (ids m), b.IsUnder ids m (n + v.size)
  | .reference _ => by
    intro b hb
    cases hb
  | .shadow _ _ => by
    intro b hb
    obtain rfl := List.mem_singleton.1 hb
    exact ⟨m, n, by omega, h, by rw [Argument.size]; omega, rfl, rfl⟩
  | .nested _ term => by
    rw [Argument.blocks, Argument.size]
    exact term.isUnder_blocks h
  | .raw _ => by
    intro b hb
    cases hb
  | .unreadable _ => by
    intro b hb
    cases hb

theorem Arguments.isUnder_blocks {m n : Nat} (h : m < n) :
    (a : Arguments) → ∀ b ∈ a.blocks ids n (ids m), b.IsUnder ids m (n + a.size)
  | .done => by
    intro b hb
    cases hb
  | .input _ value rest => by
    intro b hb
    rw [Arguments.blocks, List.mem_append] at hb
    rw [Arguments.size]
    rcases hb with hb | hb
    · have hunder := value.isUnder_blocks h b hb
      exact hunder.mono (Nat.le_refl m) (by omega)
    · have hlater : m < n + value.size := by omega
      have hunder := rest.isUnder_blocks hlater b hb
      exact hunder.mono (Nat.le_refl m) (by omega)
  | .field _ _ rest => by
    rw [Arguments.blocks, Arguments.size]
    exact rest.isUnder_blocks h

end

/-- The blocks of the arguments of a phrase are under its own block. -/
theorem Phrase.isUnder_before (p : Phrase) (n : Nat) : ∀ b ∈ p.before ids n, b.IsUnder ids n (n + p.size) := by
  intro b hb
  have hunder := p.arguments.isUnder_blocks (Nat.lt_succ_self n) b hb
  rw [Phrase.size]
  exact hunder.mono (Nat.le_refl n) (by omega)

/-! ### Items -/

namespace Item

private theorem isUnder_of_inside {m n k : Nat} (h : m < n) {next : Option BlockId} (item : Item)
    (hinside : ∀ b ∈ item.inside r ids n, b.IsUnder ids n (n + (r.phrase item.opener).size + k)) :
    ∀ b ∈ item.blocks r ids n (some (ids m)) next, b.IsUnder ids m (n + ((r.phrase item.opener).size + k)) := by
  intro b hb
  rw [blocks, List.mem_append, List.mem_cons] at hb
  rcases hb with hb | rfl | hb
  · have hunder := (r.phrase item.opener).isUnder_before n b hb
    exact hunder.mono (by omega) (by omega)
  · exact ⟨m, n, by omega, h, by rw [Phrase.size]; omega, id_block n item, rfl⟩
  · exact (hinside b hb).mono (by omega) (by omega)

mutual

/-- The blocks of an item at place `n` are under the block at place `m`. -/
theorem isUnder_blocks {m n : Nat} (h : m < n) (next : Option BlockId) :
    (item : Item) → ∀ b ∈ item.blocks r ids n (some (ids m)) next, b.IsUnder ids m (n + item.size r)
  | .statement line isStatement => by
    rw [size]
    refine isUnder_of_inside (k := 0) h (.statement line isStatement) fun b hb => ?_
    rw [inside] at hb
    cases hb
  | .enclosed opener opens body closer closes => by
    rw [size]
    refine isUnder_of_inside h (.enclosed opener opens body closer closes) fun b hb => ?_
    have hbelow : n < n + (r.phrase opener).size := by rw [Phrase.size]; omega
    rw [inside] at hb
    exact isUnder_chained hbelow body b hb
  | .forked opener isIf body middle isElse alternative closer closes => by
    rw [size]
    refine isUnder_of_inside h (.forked opener isIf body middle isElse alternative closer closes) fun b hb => ?_
    have hbelow : n < n + (r.phrase opener).size := by rw [Phrase.size]; omega
    have hbehind : n < n + (r.phrase opener).size + sizes r body := by omega
    rw [inside, List.mem_append] at hb
    rcases hb with hb | hb
    · have hunder := isUnder_chained hbelow body b hb
      exact hunder.mono (Nat.le_refl n) (Nat.add_le_add_left (Nat.le_add_right _ _) _)
    · have hunder := isUnder_chained hbehind alternative b hb
      exact hunder.mono (Nat.le_refl n) (Nat.le_of_eq (Nat.add_assoc _ _ _))

/-- Of items that follow each other each is under the one in front of it, the first under the block at place `m`. -/
theorem isUnder_chained {m n : Nat} (h : m < n) :
    (items : List Item) → ∀ b ∈ chained r ids n (some (ids m)) items, b.IsUnder ids m (n + sizes r items)
  | [] => by
    intro b hb
    rw [chained] at hb
    cases hb
  | item :: rest => by
    intro b hb
    have hsize := item.size_pos (r := r)
    rw [chained_cons, List.mem_append] at hb
    rw [sizes]
    rcases hb with hb | hb
    · have hunder := item.isUnder_blocks h _ b hb
      exact hunder.mono (Nat.le_refl m) (by omega)
    · have hunder := isUnder_chained (Nat.lt_add_of_pos_right hsize) rest b hb
      exact hunder.mono (by omega) (by omega)

end

end Item

/-! ### Scripts -/

/-- Each block of a script is the hat, which has no parent, or is under it. -/
theorem Outline.isUnder_blocks (n : Nat) (o : Outline) : ∀ b ∈ o.blocks r ids n,
    (b.id = ids n ∧ b.parent = none) ∨ b.IsUnder ids n (n + o.size r) := by
  intro b hb
  rw [blocks, List.mem_append, List.mem_cons] at hb
  rw [size]
  rcases hb with hb | rfl | hb
  · have hunder := (r.phrase o.hat).isUnder_before n b hb
    exact .inr (hunder.mono (Nat.le_refl n) (by omega))
  · exact .inl ⟨rfl, rfl⟩
  · have hbelow : n < n + (r.phrase o.hat).size := by rw [Phrase.size]; omega
    have hunder := Item.isUnder_chained hbelow o.items b hb
    exact .inr (hunder.mono (Nat.le_refl n) (by omega))

end BlockScript
