/-!
# Paths

A path is a text in which slashes separate names.  Empty names and names of a single dot do not count,
except for a dot at the front of a relative path.
-/

namespace Cohesion

namespace Path

/-- Whether a path starts at the root of all files. -/
def isAbsolute (path : String) : Bool :=
  path.toList.head? = some '/'

/-- The texts between the slashes of a path. -/
def names (path : String) : List String :=
  (path.toList.splitOn '/').map String.ofList

/-- Whether a name counts behind a slash. -/
def counts (name : String) : Bool :=
  name ≠ "" && name ≠ "."

/-- The parts of a path that count; the root is a part of its own. -/
def parts (path : String) : List String :=
  match names path with
  | [] => []
  | first :: rest =>
    let first := if isAbsolute path then ["/"] else if first = "" then [] else [first]
    first ++ rest.filter counts

/-- Whether two paths have the same parts. -/
def same (a b : String) : Bool :=
  parts a = parts b

/-- Names without those at their end that do not count. -/
def dropTrailing (names : List String) : List String :=
  (names.reverse.dropWhile (!counts ·)).reverse

/-- The path without its last part, and nothing for the root and for the empty path. -/
def parent? (path : String) : Option String :=
  match names path with
  | [] => none
  | first :: rest =>
    match dropTrailing rest with
    | [] => if first = "" then none else some ""
    | rest =>
      match dropTrailing rest.dropLast with
      | [] => if first = "" then some "/" else some first
      | rest => some ("/".intercalate (first :: rest))

/-- A path, its parent, the parent of that and so on, without the root and the empty path. -/
def lineage (path : String) : List String :=
  go (names path).length path
where
  /-- The first so many of them. -/
  go : Nat → String → List String
    | 0, _ => []
    | steps + 1, path =>
      match parent? path with
      | none => []
      | some parent => path :: go steps parent

/-- A path that is taken relative to another one. -/
def join (base path : String) : String :=
  if isAbsolute path || base = "" then path
  else if base.toList.getLast? = some '/' then base ++ path
  else base ++ "/" ++ path

/-- What follows the last dot of a name, unless the name starts with that dot. -/
def suffix? (name : String) : Option String :=
  let back := name.toList.reverse
  let stem := (back.dropWhile (· ≠ '.')).drop 1
  if stem.isEmpty then none
  else some (String.ofList (back.takeWhile (· ≠ '.')).reverse)

end Path

end Cohesion
