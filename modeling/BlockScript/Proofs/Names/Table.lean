import BlockScript.Names.Entry

/-!
# Entries of tables of known names

A table is put together from its sections in a fixed order (`NameTable.build_eq_ok_iff`), and a name is looked up as the
first entry that has it (`NameTable.lookup_eq_some_iff`).
-/

namespace BlockScript.NameTable

variable {table : NameTable} {name : String} {entry : KnownName}

/-- The first entry of a name stands behind entries of other names. -/
theorem lookup_eq_some_iff : table.lookup name = some entry ↔ ∃ before after,
    table.entries = before ++ entry :: after ∧ entry.name = name ∧ ∀ other ∈ before, other.name ≠ name := by
  rw [lookup, List.find?_eq_some_iff_append]
  simp only [beq_iff_eq, Bool.not_eq_true', beq_eq_false_iff_ne]
  constructor
  · rintro ⟨hname, before, after, hentries, hothers⟩
    exact ⟨before, after, hentries, hname, hothers⟩
  · rintro ⟨before, after, hentries, hname, hothers⟩
    exact ⟨hname, before, after, hentries, hothers⟩

theorem lookup_eq_none_iff : table.lookup name = none ↔ ∀ entry ∈ table.entries, entry.name ≠ name := by
  rw [lookup, List.find?_eq_none]
  simp only [beq_iff_eq]

theorem bind_eq_ok_iff {ε α β : Type} {x : Except ε α} {f : α → Except ε β} {b : β} :
    (x >>= f) = .ok b ↔ ∃ a, x = .ok a ∧ f a = .ok b := by
  cases x with
  | error e => simp [bind, Except.bind]
  | ok a => simp [bind, Except.bind]

/-- A table that is built has the global variables first, then the local ones, the properties of a sprite, and the
sprites. -/
theorem build_eq_ok_iff {globals locals sprites : List NameEntry} {withBuiltins : Bool} :
    build globals locals sprites withBuiltins = .ok table ↔
      ∃ g l s, globals.mapM (NameEntry.toKnownName .globalVariable) = .ok g ∧
        locals.mapM (NameEntry.toKnownName .localVariable) = .ok l ∧
        sprites.mapM (NameEntry.toKnownName .sprite) = .ok s ∧
        table.entries = g ++ l ++ (if withBuiltins then builtins else []) ++ s := by
  unfold build
  simp only [bind_eq_ok_iff]
  constructor
  · rintro ⟨g, hg, l, hl, s, hs, h⟩
    cases h
    exact ⟨g, l, s, hg, hl, hs, rfl⟩
  · rintro ⟨g, l, s, hg, hl, hs, h⟩
    exact ⟨g, hg, l, hl, s, hs, by rw [← h]; rfl⟩

end BlockScript.NameTable
