import BlockScript.Text.Basic

/-!
# Diagnostics

A diagnostic is a fault as it is reported: its kind, its reason and the line of the source where it arose.  Faults
of a source carry the location in their message, faults of other kinds have none.
-/

namespace BlockScript

/-- The kinds of faults. -/
inductive FaultKind where
  | general
  | unrecognizedLine
  | unbalancedContainer
  | malformedCondition
  | unrecognizedTrigger
  | nestingTooDeep
  | incompleteBlock
  | knownName
  | invalidGraph
  | wrongValue
  | missingKey
  | outOfRange
  | badPattern
  | noSuchFile
  | undecodable
  | isDirectory
  | alreadyExists
  | notDirectory
  | otherFileFault
  | notPath
  | notNumber
  deriving DecidableEq, Repr

namespace FaultKind

/-- The kinds of faults that a source can have; these are reported with their location. -/
def located : List FaultKind :=
  [general, unrecognizedLine, unbalancedContainer, malformedCondition, unrecognizedTrigger, nestingTooDeep,
    incompleteBlock, knownName, invalidGraph]

/-- Whether faults of this kind are reported with their location. -/
def isLocated (kind : FaultKind) : Bool :=
  located.contains kind

end FaultKind

/-- The line that is being processed. -/
structure LineContext where
  line : Int
  code : String
  deriving DecidableEq, Repr

/-- Where a fault arose: a line number, and the text of the line if it is known. -/
structure Location where
  line : Int
  code : Option String
  deriving DecidableEq, Repr

namespace Location

/-- The location of a fault.  A line number given with the fault wins over the line being processed, and then the
text of that line does not belong to it; a text alone replaces that of the line being processed. -/
def choose (context : Option LineContext) (line : Option Int) (code : Option String) : Option Location :=
  match line, context with
  | some n, _ => some ⟨n, code⟩
  | none, some c => some ⟨c.line, some (code.getD c.code)⟩
  | none, none => none

/-- The location as it follows the reason, an empty line of source being left out. -/
def suffix (l : Location) : String :=
  let place := s!"\nLocation: line {l.line}"
  match l.code with
  | none => place
  | some code => if code.isEmpty then place else place ++ s!"\nCode: {code}"

end Location

/-- A fault as it is reported. -/
structure Diagnostic where
  kind : FaultKind
  reason : String
  location : Option Location
  deriving DecidableEq, Repr

namespace Diagnostic

/-- A diagnostic under the given context; only the kinds of faults that a source can have are located. -/
def locate (kind : FaultKind) (reason : String) (context : Option LineContext) (line : Option Int)
    (code : Option String) : Diagnostic :=
  ⟨kind, reason, if kind.isLocated then Location.choose context line code else none⟩

/-- A diagnostic outside all lines. -/
def plain (kind : FaultKind) (reason : String) : Diagnostic :=
  ⟨kind, reason, none⟩

/-- The number of the line at fault. -/
def line? (d : Diagnostic) : Option Int :=
  d.location.map Location.line

/-- The reason followed by the location. -/
def message (d : Diagnostic) : String :=
  match d.location with
  | none => d.reason
  | some l => d.reason ++ l.suffix

end Diagnostic

end BlockScript
