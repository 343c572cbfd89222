import Cohesion.Files.IgnoreRules

/-!
# Repositories

The top directory of a repository holds the directory in which the repository keeps its own things.  A
working tree that shares a repository holds a file in its place, which names a directory whose file
`commondir` leads to the shared one.  Among the things of a repository there can be private rules for
the files to leave out.
-/

namespace Cohesion

namespace Repository

/-- Whether a directory is the top of a repository. -/
def isTop (e : Environment) (directory : Location) : Bool :=
  [".git", ".jj"].any fun name => (e.files.locate? directory name).isSome

/-- Directories up to the first one that is the top of a repository, and none if there is no such
one. -/
def upToTop (e : Environment) (directories : List Location) : List Location :=
  let (inside, rest) := directories.span (!isTop e ·)
  match rest with
  | top :: _ => inside ++ [top]
  | [] => []

/-- The first line of what a path leads to, and nothing if nothing is there. -/
def firstLine? (e : Environment) (path : String) : Except IgnoreFault (Option String) :=
  match e.locate? path with
  | none => .ok none
  | some l =>
    match e.files.content? l with
    | none => .error (.unreadable path .directory)
    | some content =>
      match splitLines content.toList with
      | [] => .ok none
      | line :: _ =>
        match lineText? line with
        | none => .error (.unreadable path .notText)
        | some text => .ok (some text)

/-- What a line starts with that names the directory of a working tree. -/
def linkMark : String := "gitdir: "

/-- The path of the directory that a line leads to, perhaps relative to another one. -/
def sharedPath (base line : String) : String :=
  if line.toList.head? = some '.' then Path.join base line else line

/-- The directory of the repository of which a directory is the top. -/
def ownDirectory? (e : Environment) (directory : Location) : Except IgnoreFault (Option String) := do
  let own := Path.join directory.path ".git"
  if (e.content? own).isNone then return own
  let some line ← firstLine? e own | return none
  let some link := linkMark.toList.isPrefixOf? line.toList | return none
  let base := String.ofList link
  return (← firstLine? e (Path.join base "commondir")).map (sharedPath base)

/-- The rules that are private to the repository of which a directory is the top, and what is wrong
with them. -/
def privateRules (e : Environment) (directory : Location) : List IgnoreRule × List IgnoreFault :=
  match ownDirectory? e directory with
  | .error fault => ([], [fault])
  | .ok none => ([], [])
  | .ok (some own) => IgnoreRules.ofFile e (Path.join own "info/exclude")

end Repository

end Cohesion
