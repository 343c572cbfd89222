import Cohesion.Files.Tree

/-!
# Listings of files

A listing says what a file tree holds, one thing a line and tabs between the fields of a line: `d` and
a path for a directory; `l`, a path, a target and the whole days that it is older than for a link; `f`,
a path and such days for a file.  `FileTree.changes` says what one tree holds that another one does not.
-/

namespace Cohesion

/-- What a line of a listing names. -/
inductive ListedNode where
  | directory
  | link (target : String) (days : Nat)
  | file (days : Nat)

/-- What a line of a listing names, and its path. -/
def listed? (line : String) : Option (String × ListedNode) :=
  match line.splitOn "\t" with
  | ["d", path] => some (path, .directory)
  | ["l", path, target, days] => days.toNat?.map fun days => (path, .link target days)
  | ["f", path, days] => days.toNat?.map fun days => (path, .file days)
  | _ => none

namespace FileTree

/-- The tree with a node at a path, and with all directories on the way to it. -/
def place (t : FileTree) (path : String) (node : FileNode) : FileTree :=
  let l := (Path.names path).filter Path.counts
  let parents := (t.withDirectories [] (Location.path l.dropLast)).toOption.getD t
  parents.insert l node

/-- Whether a node is the same at both of its times. -/
def isUnchanged : FileNode → FileNode → Bool
  | .file old _, .file new _ => old.size = new.size && old.toList = new.toList
  | .directory, .directory => true
  | .link old _, .link new _ => old = new
  | _, _ => false

/-- What `new` holds and `old` does not, the outer directories first. -/
def changes (old new : FileTree) : List (Location × FileNode) :=
  (new.entries.filter fun (l, node) => !(old.node? l).any (isUnchanged · node)).reverse

/-- Where `old` holds something and `new` nothing. -/
def removals (old new : FileTree) : List Location :=
  (old.entries.filter fun (l, _) => (new.node? l).isNone).map (·.1)

end FileTree

end Cohesion
