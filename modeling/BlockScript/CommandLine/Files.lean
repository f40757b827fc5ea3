import BlockScript.CommandLine.Path
import BlockScript.Diagnostic
import BlockScript.Text.Quoted

/-!
# Files

What the command line needs of files.  `Files m` are the operations on them in a monad `m`; faults are values, not
exceptions.
-/

namespace BlockScript

/-- What a path leads to. -/
inductive FileKind where
  | file
  | directory
  deriving DecidableEq, Repr

/-- Why an operation on files fails. -/
inductive FileProblem where
  | missing
  | isDirectory
  | exists
  | notDirectory
  | nameTooLong
  /-- A name that holds the character of code zero, with which names end. -/
  | zeroInName
  deriving DecidableEq, Repr

namespace FileProblem

/-- The kind of fault that a problem is. -/
def kind : FileProblem → FaultKind
  | missing => .noSuchFile
  | isDirectory => .isDirectory
  | .exists => .alreadyExists
  | notDirectory => .notDirectory
  | nameTooLong => .otherFileFault
  | zeroInName => .wrongValue

/-- The words for a problem with the path `place`. -/
def reason (place : String) : FileProblem → String
  | missing => s!"[Errno 2] No such file or directory: {place}"
  | isDirectory => s!"[Errno 21] Is a directory: {place}"
  | .exists => s!"[Errno 17] File exists: {place}"
  | notDirectory => s!"[Errno 20] Not a directory: {place}"
  | nameTooLong => s!"[Errno 36] File name too long: {place}"
  | zeroInName => "embedded null byte"

end FileProblem

/-- A problem with a path. -/
structure FileFault where
  problem : FileProblem
  path : Path
  deriving DecidableEq, Repr

namespace FileFault

/-- The fault as it is reported. -/
def diagnose (fault : FileFault) : Diagnostic :=
  Diagnostic.plain fault.problem.kind
    (fault.problem.reason (String.ofList (Text.quoted fault.path.toString.toList)))

end FileFault

/-- The operations on files. -/
structure Files (m : Type → Type) where
  /-- What a path leads to, if anything. -/
  kind? : Path → m (Except FileFault (Option FileKind))
  /-- The bytes of a file. -/
  read : Path → m ByteArray
  /-- Makes one directory. -/
  makeDirectory : Path → m (Except FileFault Unit)
  /-- Makes or replaces a file. -/
  write : Path → String → m (Except FileFault Unit)

namespace Files

variable {m : Type → Type} [Monad m]

/-- Makes a directory unless it is there.  `above` are the names of the directories in front of it, the last one
first; they are made if one of them is missing. -/
def ensureDirectory (files : Files m) (root : String) : (reversedNames : List String) → m (Except FileFault Unit)
  | [] => return .ok ()
  | name :: above => do
    let path : Path := ⟨root, (name :: above).reverse⟩
    match ← files.makeDirectory path with
    | .error ⟨.missing, _⟩ =>
      match ← files.ensureDirectory root above with
      | .error fault => return .error fault
      | .ok () => settle path (← files.makeDirectory path)
    | result => settle path result
where
  /-- A directory that is there already is as good as one that is made. -/
  settle (path : Path) : Except FileFault Unit → m (Except FileFault Unit)
    | .ok () => return .ok ()
    | .error fault => do
      match ← files.kind? path with
      | .ok (some .directory) => return .ok ()
      | .ok _ => return .error fault
      | .error fault => return .error fault

/-- Whether a path leads to a file. -/
def isFile (files : Files m) (path : Path) : m (Except FileFault Bool) := do
  return (← files.kind? path).map fun kind => kind = some .file

end Files

/-- The text of bytes in UTF-8, with every line end as a line feed. -/
def decodeText? (bytes : ByteArray) : Option String :=
  (String.fromUTF8? bytes).map fun s => String.ofList (unifyLineEnds s.toList)
where
  /-- A carriage return, with a line feed behind it or without, is a line end. -/
  unifyLineEnds : List Char → List Char
    | '\r' :: '\n' :: t => '\n' :: unifyLineEnds t
    | '\r' :: t => '\n' :: unifyLineEnds t
    | c :: t => c :: unifyLineEnds t
    | [] => []

end BlockScript
