import BlockScript.Text.Integer
import BlockScript.Text.Quoted

/-!
# Arguments of the command line

The command line names a source and a target, and options that may stand anywhere.  An option may be shortened as
long as it stays clear which one is meant, and its value may follow behind an equals sign.  Behind two hyphens
everything is a name.  `Request.ofArguments` reads the arguments from left to right; asking for help ends reading.
-/

namespace BlockScript.CommandLine

/-- The options. -/
inductive Choice where
  | help
  | names
  | maxDepth
  | noValidate
  | verbose
  deriving DecidableEq, Repr

namespace Choice

/-- The spellings of the options. -/
def spellings : List (String × Choice) :=
  [("-h", help), ("--help", help), ("--names", names), ("--max-depth", maxDepth),
    ("--no-validate", noValidate), ("--verbose", verbose)]

/-- Whether an option takes a value. -/
def takesValue (choice : Choice) : Bool :=
  choice = names || choice = maxDepth

/-- An option by all its spellings. -/
def title (choice : Choice) : String :=
  "/".intercalate ((spellings.filter fun entry => entry.2 = choice).map Prod.fst)

end Choice

/-- What is wrong with the arguments. -/
inductive UsageFault where
  | ambiguous (argument : String) (matching : List String)
  | unusedValue (choice : Choice) (value : Text)
  | missingValue (choice : Choice)
  | notInteger (choice : Choice) (value : String)
  | missingNames (names : List String)
  | unrecognized (arguments : List String)
  deriving DecidableEq, Repr

namespace UsageFault

/-- The words for a fault. -/
def reason : UsageFault → String
  | ambiguous argument matching =>
    s!"ambiguous option: {argument} could match " ++ ", ".intercalate matching
  | unusedValue choice value =>
    s!"argument {choice.title}: ignored explicit argument {String.ofList value.quoted}"
  | missingValue choice => s!"argument {choice.title}: expected one argument"
  | notInteger choice value =>
    s!"argument {choice.title}: invalid int value: {String.ofList (Text.quoted value.toList)}"
  | missingNames names => "the following arguments are required: " ++ ", ".intercalate names
  | unrecognized arguments => "unrecognized arguments: " ++ " ".intercalate arguments

end UsageFault

/-- Why the arguments are no request. -/
inductive Stop where
  | help
  | misuse (fault : UsageFault)
  deriving DecidableEq, Repr

/-- A value as it is given.  Two lone hyphens are taken out of what is given, so that nothing may be left. -/
inductive Given (α : Type) where
  | value (a : α)
  | nothing
  deriving DecidableEq, Repr

/-- The value that an argument gives. -/
def Given.ofArgument (argument : String) : Given String :=
  if argument = "--" then .nothing else .value argument

/-- What is asked for. -/
structure Request where
  source : Given String
  target : Given String
  names : Option (Given String)
  maxDepth : Given Int
  validate : Bool
  verbose : Bool
  deriving DecidableEq, Repr

/-- The value written together with an option. -/
inductive Attached where
  | nothing
  /-- Behind an equals sign. -/
  | equals (value : Text)
  /-- Right behind the letter of the option. -/
  | glued (value : Text)
  deriving DecidableEq, Repr

/-- An argument by what it looks like. -/
inductive Item where
  | plain
  | separator
  | option (choice : Choice) (attached : Attached)
  | unknownOption
  deriving DecidableEq, Repr

namespace Item

/-- Whether a text looks like a negative number, which is no option. -/
def isNegativeNumber (t : Text) : Bool :=
  match (if t.getLast? = some '\n' then t.dropLast else t) with
  | '-' :: digits =>
    let rest := digits.dropWhile isDecimalDigit
    (digits ≠ [] && rest = []) ||
      (rest.head? = some '.' && rest.tail ≠ [] && rest.tail.all isDecimalDigit)
  | _ => false

/-- The text in front of the first equals sign, and the text behind it if there is one. -/
def splitEquals (t : Text) : Text × Option Text :=
  (t.takeWhile (· != '='), (t.dropWhile (· != '=')).tail?)

/-- The options that a spelling with two hyphens may be short for. -/
def completions (start : Text) : List (String × Choice) :=
  Choice.spellings.filter fun entry => start.isPrefixOf entry.1.toList

/-- What a value behind an equals sign makes of an option. -/
def attachedOf (value : Option Text) : Attached :=
  (value.map Attached.equals).getD .nothing

/-- The value behind the equals sign of a known spelling.  Behind a single letter the sign means nothing, unless the
argument ends there. -/
def attachedTo (spelling value : Text) : Attached :=
  if spelling.length = 2 && value ≠ [] then .glued value else .equals value

/-- What an argument that is no known spelling looks like: a shortened option, an option with its value, a negative
number, a text with spaces, or an option that is not known. -/
def ofUnspelled (argument : String) (t : Text) : Except UsageFault Item :=
  let (start, value) := splitEquals t
  match t with
  | '-' :: '-' :: _ =>
    match completions start with
    | [(_, choice)] => .ok (.option choice (attachedOf value))
    | [] => .ok (if t.contains ' ' then .plain else .unknownOption)
    | several => .error (.ambiguous argument (several.map Prod.fst))
  | '-' :: 'h' :: rest => .ok (.option .help (.glued rest))
  | _ => .ok (if isNegativeNumber t || t.contains ' ' then .plain else .unknownOption)

/-- What an argument in front of two lone hyphens looks like. -/
def ofArgument (argument : String) : Except UsageFault Item :=
  let t := argument.toList
  if t.head? ≠ some '-' || t = ['-'] then .ok .plain
  else match Choice.spellings.lookup argument with
    | some choice => .ok (.option choice .nothing)
    | none =>
      match splitEquals t with
      | (start, some value) =>
        match Choice.spellings.lookup (String.ofList start) with
        | some choice => .ok (.option choice (attachedTo start value))
        | none => ofUnspelled argument t
      | (_, none) => ofUnspelled argument t

/-- The arguments with what they look like. -/
def ofArguments : List String → Except UsageFault (List (Item × String))
  | [] => .ok []
  | argument :: rest =>
    if argument = "--" then .ok ((.separator, argument) :: rest.map fun a => (.plain, a))
    else do
      let item ← ofArgument argument
      let items ← ofArguments rest
      return (item, argument) :: items

end Item

/-- What has been read from the arguments so far. -/
structure Reading where
  /-- The source and the target, as far as they have been read. -/
  files : List (Given String)
  names : Option (Given String)
  maxDepth : Given Int
  validate : Bool
  verbose : Bool
  /-- Arguments that nothing takes. -/
  unused : List String

/-- What stands in front of an argument: the source or the target, lone hyphens that belong to the argument, or
anything else. -/
inductive Previous where
  | file
  | separator
  | other
  deriving DecidableEq, Repr

namespace Reading

/-- Applies an option without a value. -/
def flag (choice : Choice) (r : Reading) : Except Stop Reading :=
  match choice with
  | .noValidate => .ok { r with validate := false }
  | .verbose => .ok { r with verbose := true }
  | .help => .error .help
  | .names => .error (.misuse (.missingValue choice))
  | .maxDepth => .error (.misuse (.missingValue choice))

/-- Applies an option with a value. -/
def withValue (choice : Choice) (value : String) (r : Reading) : Except Stop Reading :=
  match choice with
  | .names => .ok { r with names := some (Given.ofArgument value) }
  | .maxDepth =>
    match Given.ofArgument value with
    | .nothing => .ok { r with maxDepth := .nothing }
    | .value value =>
      match Text.integer? value.toList with
      | some n => .ok { r with maxDepth := .value n }
      | none => .error (.misuse (.notInteger choice value))
  | _ => .error (.misuse (.unusedValue choice value.toList))

/-- Applies the option for help, behind whose letter `value` is written.  Further letters `h` ask for help again;
anything else would be a value, which this option does not take. -/
def gluedHelp : (value : Text) → Stop
  | [] => .help
  | 'h' :: rest => gluedHelp rest
  | value => .misuse (.unusedValue .help value)

/-- Adds an argument that nothing takes. -/
def leave (argument : String) (r : Reading) : Reading :=
  { r with unused := r.unused ++ [argument] }

/-- Whether the source or the target is still missing. -/
def wantsFile (r : Reading) : Bool :=
  r.files.length < 2

/-- Adds the source or the target.  Of lone hyphens and a file that they belong to, only the first hyphens are taken
out; so the file itself may have that name. -/
def addFile (previous : Previous) (argument : String) (r : Reading) : Reading :=
  { r with files := r.files ++ [if previous = .separator then .value argument else Given.ofArgument argument] }

/-- Reads arguments from left to right.  Two lone hyphens belong to the file in front of them, or else to the one
behind them. -/
def run (r : Reading) (previous : Previous) : List (Item × String) → Except Stop Reading
  | [] => .ok r
  | (.plain, argument) :: rest =>
    if r.wantsFile then run (r.addFile previous argument) .file rest
    else run (r.leave argument) .other rest
  | (.separator, argument) :: rest =>
    if previous = .file then run r .other rest
    else if r.wantsFile && rest ≠ [] then run r .separator rest
    else run (r.leave argument) .other rest
  | (.unknownOption, argument) :: rest => run (r.leave argument) .other rest
  | (.option choice .nothing, _) :: rest =>
    if choice.takesValue then
      match rest with
      | (.plain, value) :: rest => do run (← r.withValue choice value) .other rest
      | _ => .error (.misuse (.missingValue choice))
    else do run (← r.flag choice) .other rest
  | (.option choice (.equals value), _) :: rest => do
    run (← r.withValue choice (String.ofList value)) .other rest
  | (.option _ (.glued value), _) :: _ => .error (gluedHelp value)

end Reading

namespace Request

/-- What some arguments ask for. -/
def ofArguments (defaultDepth : Int) (arguments : List String) : Except Stop Request := do
  let items ← (Item.ofArguments arguments).mapError Stop.misuse
  let r ← Reading.run ⟨[], none, .value defaultDepth, true, false, []⟩ .other items
  match r.files with
  | source :: target :: _ =>
    if r.unused ≠ [] then throw (.misuse (.unrecognized r.unused))
    return ⟨source, target, r.names, r.maxDepth, r.validate, r.verbose⟩
  | [_] => throw (.misuse (.missingNames ["output"]))
  | [] => throw (.misuse (.missingNames ["input", "output"]))

end Request

end BlockScript.CommandLine
