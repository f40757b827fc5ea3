import BlockScript.Builder.Emit
import BlockScript.Graph.Validity
import BlockScript.Line.Scan
import BlockScript.Phrase.Instruction

/-!
# Compiling a source

The lines of a source are compiled one after the other.  Each `when` line completes the script before it and begins
a new one.  The first fault ends compilation, and no script is given then.
-/

namespace BlockScript

/-- How a source is compiled. -/
structure Options where
  reader : Reader
  ids : IdSource

/-- The state of compiling a source: the completed scripts, whether a script is being built, and the builder. -/
structure Progress where
  scripts : List Script
  building : Bool
  builder : Builder

/-- Nothing has been compiled yet. -/
def Progress.start : Progress :=
  ⟨[], false, Builder.empty 0 #[]⟩

/-- A step of compiling. -/
abbrev Compile := EStateM LocatedFault Progress

namespace Compile

/-- A step of building, whose faults are located at the line being processed. -/
def lift {α : Type} (context : Option LineContext) (step : Build α) : Compile α := fun p =>
  match step p.builder with
  | .ok a b => .ok a { p with builder := b }
  | .error fault b => .error ⟨fault, context⟩ { p with builder := b }

/-- Completes the script that is being built, if there is one. -/
def finishScript (context : Option LineContext) : Compile Unit := do
  if (← get).building then
    let script ← lift context Build.finish
    modify fun p => { p with scripts := p.scripts ++ [script], building := false }

/-- Begins a script with a hat. -/
def beginScript (ids : IdSource) (context : Option LineContext) (hat : Term) : Compile Unit := do
  modify fun p => { p with building := true, builder := Builder.empty p.builder.drawn p.builder.events }
  discard (lift context (hat.emit ids none))

/-- Carries out an instruction of line `number` inside a script. -/
def perform (ids : IdSource) (number : Int) : Instruction → Build Unit
  | .trigger hat => discard (hat.emit ids none)
  | .add term => do
    Build.append (← term.emit ids none)
  | .enter container => do
    Build.openBody (← container.emit ids none) number
  | .otherwise => discard (Build.openSecondBody .ifElse number)
  | .close => discard Build.closeBody
  | .refuse fault => throw fault

/-- The fault of a line in front of the first script. -/
def outsideFault (line : Line) : Fault :=
  match line.kind with
  | .otherwise => .elseWithoutIf
  | .close => .endWithoutContainer
  | _ => .lineBeforeTrigger line.text

/-- Compiles one line. -/
def step (o : Options) (line : Line) : Compile Unit := do
  let context := some ⟨line.number, String.ofList line.text⟩
  lift context (Build.report (.line line.number line.kind.name line.text))
  match o.reader.instruction line with
  | .trigger hat =>
    finishScript context
    beginScript o.ids context hat
  | .refuse fault => lift context (throw fault)
  | instruction =>
    if (← get).building then lift context (perform o.ids line.number instruction)
    else lift context (throw (outsideFault line))

/-- Compiles the lines up to the mark of the end, which must come. -/
def run (o : Options) : List Line → Compile (List Script)
  | [] => lift none (throw .outOfLines)
  | line :: rest =>
    if line.kind = .finish then do
      finishScript none
      return (← get).scripts
    else do
      step o line
      run o rest

end Compile

/-- A result with the events on the way to it. -/
structure Logged (α : Type) where
  result : Except Diagnostic α
  events : Array Event

/-- The scripts of some lines. -/
def compileLines (o : Options) (lines : List Line) : Logged (List Script) :=
  match Compile.run o lines Progress.start with
  | .ok scripts p => ⟨.ok scripts, p.builder.events⟩
  | .error fault p => ⟨.error fault.diagnose, p.builder.events⟩

/-- Some scripts, or the first defect in them. -/
def checked (scripts : List Script) : Except Diagnostic (List Script) :=
  match Validity.checkAll scripts with
  | .ok () => .ok scripts
  | .error defect => .error defect.diagnose

/-- The scripts of a source, checked if that is asked for. -/
def compileSource (o : Options) (validate : Bool) (source : Text) : Logged (List Script) :=
  let compiled := compileLines o (Line.scan source)
  if validate then ⟨compiled.result.bind checked, compiled.events⟩ else compiled

end BlockScript
