import BlockScript.CommandLine.Run

/-!
# The program

Runs the command line on the files of the system.
-/

namespace BlockScript

/-- The problem that a failed operation on files stands for. -/
def FileProblem.ofError : IO.Error → Option FileProblem
  | .noFileOrDirectory .. => some .missing
  | .alreadyExists .. => some .exists
  | .inappropriateType .. => some .notDirectory
  | _ => none

/-- Carries out an operation at a path, with its fault as a value. -/
def attempt (path : Path) (action : IO Unit) : IO (Except FileFault Unit) := do
  try
    action
    return .ok ()
  catch e =>
    match FileProblem.ofError e with
    | some problem => return .error ⟨problem, path⟩
    | none => throw e

/-- Whether a path leads to a file that can be read, or else to a directory. -/
def systemKind? (path : Path) : IO (Option FileKind) := do
  try
    discard (IO.FS.readBinFile path.toString)
    return some .file
  catch
    | .inappropriateType .. => return some .directory
    | _ => return none

/-- The operations on the files of the system. -/
def systemFiles : Files IO where
  kind? path := return .ok (← systemKind? path)
  read path := IO.FS.readBinFile path.toString
  makeDirectory path := attempt path (IO.FS.createDir path.toString)
  write path text := do
    if (← systemKind? path) = some .directory then return .error ⟨.isDirectory, path⟩
    attempt path (IO.FS.writeFile path.toString text)

end BlockScript

/-- Compiles the file that the arguments name. -/
def main (arguments : List String) : IO UInt32 := do
  let outcome ← BlockScript.CommandLine.run BlockScript.systemFiles arguments
  IO.print outcome.output
  IO.eprint outcome.errors
  match outcome.exit with
  | .ok code => return code
  | .error d =>
    IO.eprintln d.message
    return 1
