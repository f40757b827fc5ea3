/-!
# Paths

A path is its root and the names from there on.  Empty names and dots are left out when a path is read, names of
two dots are kept.
-/

namespace BlockScript

/-- A path; the root is empty for a path that starts at the working directory. -/
structure Path where
  root : String
  names : List String
  deriving DecidableEq, Repr

namespace Path

/-- The root that the leading slashes of a path stand for.  Exactly two slashes are a root of their own. -/
def rootOf (t : List Char) : String :=
  match (t.takeWhile (· == '/')).length with
  | 0 => ""
  | 2 => "//"
  | _ => "/"

/-- The parts of a text between its slashes. -/
def parts : List Char → List (List Char)
  | [] => [[]]
  | c :: t =>
    if c = '/' then [] :: parts t
    else match parts t with
      | first :: rest => (c :: first) :: rest
      | [] => [[c]]

/-- The path that a text names. -/
def ofString (s : String) : Path :=
  ⟨rootOf s.toList, ((parts s.toList).filter fun part => part ≠ [] && part ≠ ['.']).map String.ofList⟩

/-- The text of a path. -/
def toString (p : Path) : String :=
  if p.root = "" && p.names = [] then "." else p.root ++ "/".intercalate p.names

/-- The directory that a path lies in. -/
def parent (p : Path) : Path :=
  ⟨p.root, p.names.dropLast⟩

end Path

end BlockScript
