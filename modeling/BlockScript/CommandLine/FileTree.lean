import BlockScript.CommandLine.Files

/-!
# Files in memory

A tree of files that lives in memory.  A file is kept under the names that lead to it from the working directory;
the directories in front of it are there with it.  Names that begin with two dots or with a slash lead out of the
working directory, where nothing but the directories on the way is known to be.
-/

namespace BlockScript

/-- Files and directories by the names that lead to them; a directory has no bytes. -/
abbrev FileTree := List (List String × Option ByteArray)

namespace FileTree

/-- Whether a name leads out of the working directory: upwards, or to the root. -/
def leadsOut (name : String) : Bool :=
  name = ".." || name = "/"

/-- What some names lead to. -/
def kindAt? (tree : FileTree) (names : List String) : Option FileKind :=
  match tree.lookup names with
  | some (some _) => some .file
  | some none => some .directory
  | none => if names.all leadsOut || tree.any (names.isPrefixOf ·.1) then some .directory else none

/-- The names one directory further up.  Above the root there is the root. -/
def above (names : List String) : List String :=
  match names.getLast? with
  | some "/" => names
  | some ".." => names ++ [".."]
  | some _ => names.dropLast
  | none => [".."]

/-- The most bytes of a name. -/
def maxNameSize : Nat :=
  255

/-- The most bytes of a path. -/
def maxPathSize : Nat :=
  4095

/-- The names that lead to the same place without going up behind going down.  All but the last one must be
directories. -/
def resolveFrom (tree : FileTree) (here : List String) : List String → Except FileProblem (List String)
  | [] => .ok here
  | name :: rest =>
    match kindAt? tree here with
    | none => .error .missing
    | some .file => .error .notDirectory
    | some .directory =>
      if maxNameSize < name.utf8ByteSize then .error .nameTooLong
      else resolveFrom tree (if name = ".." then above here else here ++ [name]) rest

/-- The names that a path stands for. -/
def resolve (tree : FileTree) (path : Path) : Except FileProblem (List String) :=
  if path.names.any (·.toList.contains '\x00') then .error .zeroInName
  else if maxPathSize < path.toString.utf8ByteSize then .error .nameTooLong
  else resolveFrom tree (if path.root = "" then [] else ["/"]) path.names

/-- What a path leads to.  Where the way to it is no way at all, there is nothing. -/
def kind? (tree : FileTree) (path : Path) : Except FileFault (Option FileKind) :=
  match resolve tree path with
  | .ok names => .ok (kindAt? tree names)
  | .error .nameTooLong => .error ⟨.nameTooLong, path⟩
  | .error _ => .ok none

/-- The bytes of a file. -/
def read (tree : FileTree) (path : Path) : ByteArray :=
  ((resolve tree path).toOption.bind fun names => (tree.lookup names).join).getD .empty

/-- The directory that some names lie in is there. -/
def checkParent (tree : FileTree) (names : List String) : Except FileProblem Unit :=
  match kindAt? tree names.dropLast with
  | none => .error .missing
  | some .file => .error .notDirectory
  | some .directory => .ok ()

/-- The tree with a new directory. -/
def makeDirectory (tree : FileTree) (path : Path) : Except FileProblem FileTree := do
  let names ← resolve tree path
  checkParent tree names
  if (kindAt? tree names).isSome then throw .exists
  return tree ++ [(names, none)]

/-- The tree with a new or replaced file. -/
def write (tree : FileTree) (path : Path) (text : String) : Except FileProblem FileTree := do
  let names ← resolve tree path
  if kindAt? tree names = some .directory then throw .isDirectory
  checkParent tree names
  return (tree.filter (·.1 != names)) ++ [(names, some text.toUTF8)]

/-- Carries out a change of the tree at a path. -/
def change (path : Path) (f : FileTree → Except FileProblem FileTree) :
    StateM FileTree (Except FileFault Unit) :=
  fun tree =>
    match f tree with
    | .ok tree' => (.ok (), tree')
    | .error problem => (.error ⟨problem, path⟩, tree)

/-- The operations on files, on a tree in memory. -/
def files : Files (StateM FileTree) where
  kind? path := do return (← get).kind? path
  read path := do return (← get).read path
  makeDirectory path := change path (·.makeDirectory path)
  write path text := change path (·.write path text)

end FileTree

end BlockScript
