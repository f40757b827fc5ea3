import BlockScript.Proofs.Outline.Relocation

/-!
# Lines further down

Lines that stand further down are read as they were, and a fault in them is the same fault further down
(`Sketch.read_shift`).  What has been read is laid out as the same blocks (`Outline.scripts_shift`).
-/

namespace BlockScript

/-- The line `k` lines further down. -/
def Line.shift (k : Int) (line : Line) : Line :=
  { line with number := line.number + k }

/-- The fault `k` lines further down; only a container that is never closed names a line. -/
def Fault.shift (k : Int) : Fault → Fault
  | neverClosed opcode line => neverClosed opcode (line + k)
  | fault => fault

/-- The fault `k` lines further down. -/
def LocatedFault.shift (k : Int) (f : LocatedFault) : LocatedFault :=
  ⟨f.fault.shift k, f.context.map fun context => { context with line := context.line + k }⟩

/-- All lines move `k` lines down and keep their columns. -/
def Relocation.down (k : Int) : Relocation :=
  ⟨(· + k), Line.column⟩

/-- The script `k` lines further down. -/
def Outline.shift (k : Int) : Outline → Outline :=
  relocate (.down k)

variable {k : Int} {r : Reader}

theorem LocatedFault.shift_eq_relocate (f : LocatedFault) : f.shift k = f.relocate (· + k) := by
  obtain ⟨fault, context⟩ := f
  cases fault <;> rfl

/-- A fault further down is reported with the same kind. -/
theorem LocatedFault.kind_diagnose_shift (f : LocatedFault) : (f.shift k).diagnose.kind = f.diagnose.kind := by
  rw [shift_eq_relocate, kind_diagnose_relocate]

/-- A fault further down is reported further down. -/
theorem LocatedFault.line?_diagnose_shift (f : LocatedFault) :
    (f.shift k).diagnose.line? = f.diagnose.line?.map (· + k) := by
  rw [shift_eq_relocate, line?_diagnose_relocate]

/-- A fault elsewhere is reported as the fault that is as far down as the reported line is. -/
theorem LocatedFault.diagnose_relocate {f : LocatedFault} {n : Int} (h : f.diagnose.line? = some n)
    (number : Int → Int) : (f.relocate number).diagnose = (f.shift (number n - n)).diagnose := by
  rw [shift_eq_relocate]
  exact diagnose_relocate_congr h (by omega)

/-- Lines further down are read as they were. -/
theorem Sketch.read_shift (lines : List Line) : read r (lines.map (Line.shift k)) =
    ((read r lines).map (List.map (Outline.shift k))).mapError (LocatedFault.shift k) := by
  have hfault : LocatedFault.shift k = LocatedFault.relocate (Relocation.down k).number :=
    funext LocatedFault.shift_eq_relocate
  rw [hfault]
  exact @read_relocate (.down k) r lines

/-- Scripts further down are laid out as the same blocks. -/
theorem Outline.scripts_shift {ids : IdSource} (n : Nat) (outlines : List Outline) :
    scripts r ids n (outlines.map (shift k)) = scripts r ids n outlines :=
  @scripts_relocate (.down k) r ids n outlines

end BlockScript
