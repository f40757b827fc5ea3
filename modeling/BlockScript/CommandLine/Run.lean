import BlockScript.CommandLine.Arguments
import BlockScript.CommandLine.Files
import BlockScript.Compile
import BlockScript.Graph.Encoding
import BlockScript.Json.Printer
import BlockScript.Names.Entry

/-!
# The command line

`CommandLine.run` compiles the source that its arguments name and writes the scripts to the target.  What happens on
the way is reported on the error output.
-/

namespace BlockScript

/-- The table of known names in a file, which must be there. -/
def NameTable.load {m : Type → Type} [Monad m] (files : Files m) (path : Path) (withBuiltins : Bool) :
    m (Logged NameTable) := do
  let place := path.toString
  match ← files.isFile path with
  | .error fault => return ⟨.error fault.diagnose, #[]⟩
  | .ok false => return ⟨.error (NameFault.missingFile place).diagnose, #[]⟩
  | .ok true =>
    match decodeText? (← files.read path) with
    | none => return ⟨.error (Diagnostic.plain .undecodable ""), #[]⟩
    | some text =>
      match NameTable.ofText place withBuiltins text.toList with
      | .error fault => return ⟨.error fault.diagnose, #[]⟩
      | .ok table => return ⟨.ok table, #[.namesLoaded table.size place]⟩

namespace CommandLine

/-- How the program is called. -/
def usage : String :=
  "usage: pseudoblocks [-h] [--names NAMES] [--max-depth MAX_DEPTH]\n" ++
  "                    [--no-validate] [--verbose]\n" ++
  "                    input output\n"

/-- The help text. -/
def helpText : String :=
  usage ++
  "\nCompile block pseudocode into Scratch block scripts (JSON)\n" ++
  "\npositional arguments:\n" ++
  "  input                 Path to input pseudocode file\n" ++
  "  output                Path to output .json file\n" ++
  "\noptions:\n" ++
  "  -h, --help            show this help message and exit\n" ++
  "  --names NAMES         JSON file with known names: \x7b\"globals\": [...],\n" ++
  "                        \"locals\": [...], \"sprites\": [...]\x7d.\n" ++
  "  --max-depth MAX_DEPTH\n" ++
  "                        Maximum expression and condition nesting depth\n" ++
  "                        (default 32).\n" ++
  "  --no-validate         Skip the structural check of the finished block\n" ++
  "                        graphs.\n" ++
  "  --verbose             Log every classified line.\n"

/-- What the program leaves behind: its exit code or the fault that ended it, its two outputs, and all that
happened on the way, whether it was logged or not. -/
structure Outcome where
  exit : Except Diagnostic UInt32
  output : String
  errors : String
  events : Array Event

/-- The lines of the log.  Details are logged only if that is asked for. -/
def logText (verbose : Bool) (events : Array Event) : String :=
  String.join ((events.toList.filter fun e => verbose || e.level ≠ .debug).map fun e => e.logLine ++ "\n")

/-- What is reported when a path is put to a use and nothing is left of it. -/
def missingPath (use : String) : Diagnostic :=
  Diagnostic.plain .notPath s!"'list' object has no attribute '{use}'"

/-- What is reported when a depth is compared with a limit of which nothing is left. -/
def missingLimit : Diagnostic :=
  Diagnostic.plain .notNumber "'>' not supported between instances of 'int' and 'list'"

/-- The scripts of a source.  If nothing is left of the limit, there is none that a phrase could keep, and the first
phrase with a depth ends compilation. -/
def compileWithin (names : NameTable) (limit : Given Int) (validate : Bool) (source : Text) : Logged (List Script) :=
  match limit with
  | .value limit => compileSource ⟨⟨names, limit⟩, IdSource.default⟩ validate source
  | .nothing =>
    let compiled := compileSource ⟨⟨names, 0⟩, IdSource.default⟩ validate source
    ⟨compiled.result.mapError fun d => if d.kind = .nestingTooDeep then missingLimit else d, compiled.events⟩

variable {m : Type → Type} [Monad m]

/-- The known names that a request names. -/
def loadNames (files : Files m) (names : Option (Given String)) : m (Logged NameTable) :=
  match names with
  | none => return ⟨.ok NameTable.default, #[]⟩
  | some .nothing => return ⟨.error (missingPath "exists"), #[]⟩
  | some (.value path) => NameTable.load files (Path.ofString path) true

/-- Writes the scripts into a file and makes the directories in front of it. -/
def writeScripts (files : Files m) (target : Path) (scripts : List Script) : m (Except FileFault Unit) := do
  match ← files.ensureDirectory target.root target.parent.names.reverse with
  | .error fault => return .error fault
  | .ok () => files.write target (Script.listToJson scripts).pretty

/-- Writes the scripts of a source to the target. -/
def finish (files : Files m) (source : Path) (target : Given String) (compiled : Logged (List Script)) :
    m (Logged Unit) := do
  match compiled.result, target with
  | .error d, _ => return ⟨.error d, compiled.events⟩
  | .ok _, .nothing => return ⟨.error (missingPath "parent"), compiled.events⟩
  | .ok scripts, .value target =>
    let target := Path.ofString target
    match ← writeScripts files target scripts with
    | .error fault => return ⟨.error fault.diagnose, compiled.events⟩
    | .ok () =>
      return ⟨.ok (), compiled.events.push (.compiled scripts.length source.toString target.toString)⟩

/-- Compiles a source file, which must be there, into the target of a request. -/
def compileFrom (files : Files m) (request : Request) (source : Path) : m (Logged Unit) := do
  let names ← loadNames files request.names
  match names.result with
  | .error d => return ⟨.error d, names.events⟩
  | .ok table =>
    match decodeText? (← files.read source) with
    | none => return ⟨.error (Diagnostic.plain .undecodable ""), names.events⟩
    | some text =>
      let compiled := compileWithin table request.maxDepth request.validate text.toList
      finish files source request.target ⟨compiled.result, names.events ++ compiled.events⟩

/-- Compiles the source file of a request into its target. -/
def compileFile (files : Files m) (request : Request) : m (Logged Unit) := do
  match request.source with
  | .nothing => return ⟨.error (missingPath "exists"), #[]⟩
  | .value source =>
    let source := Path.ofString source
    match ← files.isFile source with
    | .error fault => return ⟨.error fault.diagnose, #[]⟩
    | .ok false =>
      return ⟨.error (Diagnostic.plain .noSuchFile s!"Input file not found: '{source.toString}'"), #[]⟩
    | .ok true => compileFrom files request source

/-- Runs the program with some arguments. -/
def run (files : Files m) (arguments : List String) : m Outcome := do
  match Request.ofArguments Reader.defaultLimit arguments with
  | .error .help => return ⟨.ok 0, helpText, "", #[]⟩
  | .error (.misuse fault) => return ⟨.ok 2, "", usage ++ "pseudoblocks: error: " ++ fault.reason ++ "\n", #[]⟩
  | .ok request =>
    let done ← compileFile files request
    return ⟨done.result.map fun _ => 0, "", logText request.verbose done.events, done.events⟩

end CommandLine

end BlockScript
