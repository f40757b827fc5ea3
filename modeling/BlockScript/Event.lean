import BlockScript.Text.Quoted

/-!
# Events

What compilation reports while it runs, apart from its result.
-/

namespace BlockScript

/-- How much an event matters. -/
inductive Level where
  | debug
  | info
  | warning
  deriving DecidableEq, Repr

namespace Level

/-- The word for a level. -/
def name : Level → String
  | debug => "DEBUG"
  | info => "INFO"
  | warning => "WARNING"

end Level

/-- An event of compilation. -/
inductive Event where
  /-- A line is about to be processed. -/
  | line (number : Int) (kind : String) (text : Text)
  /-- A condition was read as a predicate. -/
  | condition (text : Text) (opcode : String)
  /-- A variable slot names something that is not known. -/
  | unknownVariable (name : Text)
  /-- A script is complete. -/
  | assembled (hat : String) (blocks sequence : Nat)
  /-- A table of known names was read. -/
  | namesLoaded (count : Nat) (path : String)
  /-- A file was compiled. -/
  | compiled (count : Nat) (source target : String)
  deriving DecidableEq, Repr

namespace Event

/-- How much an event matters. -/
def level : Event → Level
  | line _ _ _ => .debug
  | condition _ _ => .debug
  | unknownVariable _ => .warning
  | assembled _ _ _ => .debug
  | namesLoaded _ _ => .info
  | compiled _ _ _ => .info

/-- The part of the compiler that reports an event. -/
def origin : Event → String
  | line _ _ _ => "parser"
  | condition _ _ => "conditions"
  | unknownVariable _ => "resolver"
  | assembled _ _ _ => "builder"
  | namesLoaded _ _ => "names"
  | compiled _ _ _ => "compiler"

/-- The words for an event. -/
def message : Event → String
  | line number kind text => s!"line {number} {kind}: {String.ofList text}"
  | condition text opcode => s!"Condition {String.ofList text.quoted} -> {opcode}"
  | unknownVariable name =>
    s!"Variable '{String.ofList name}' is not in the known-name table; emitting it without an id."
  | assembled hat blocks sequence => s!"Assembled script {hat}: {blocks} blocks, {sequence} top-level"
  | namesLoaded count path => s!"Loaded {count} known names from {path}"
  | compiled count source target => s!"Compiled {count} script(s) from {source} into {target}"

/-- An event as a line of the log. -/
def logLine (e : Event) : String :=
  s!"{e.level.name} {e.origin}: {e.message}"

end Event

end BlockScript
