import Cohesion.Files.Path

/-!
# File trees

A `FileTree` holds files, directories and links, each at its location: the names on the way to it from
the root.  `FileTree.resolve` follows a path to a location, links and all.  What writes into a tree
returns the tree that results.
-/

namespace Cohesion

/-- The names on the way from the root of a file tree. -/
abbrev Location := List String

/-- The path of a location. -/
def Location.path (l : Location) : String :=
  "/" ++ "/".intercalate l

/-- Whether a location comes before another one, or is the same: the first names that differ decide,
and what is further up comes first. -/
def Location.isAtMost : Location → Location → Bool
  | [], _ => true
  | _ :: _, [] => false
  | a :: as, b :: bs => a < b || (a = b && Location.isAtMost as bs)

/-- What a file holds. -/
inductive FileContent where
  | bytes (data : ByteArray)
  /-- So many bytes that are zero. -/
  | zeros (size : Nat)

namespace FileContent

/-- The number of bytes. -/
def size : FileContent → Nat
  | .bytes data => data.size
  | .zeros size => size

/-- The bytes in one piece. -/
def toBytes : FileContent → ByteArray
  | .bytes data => data
  | .zeros size => ⟨(List.replicate size 0).toArray⟩

/-- The bytes one by one. -/
def toList (c : FileContent) : List UInt8 :=
  c.toBytes.toList

end FileContent

/-- What is at a location.  Files and links are older than so many whole days and no more, counted
from their last change. -/
inductive FileNode where
  | file (content : FileContent) (days : Nat)
  | directory
  | link (target : String) (days : Nat := 0)

/-- The whole days that a file or a link is older than.  Those of a link are its own, not those of what
it leads to. -/
def FileNode.days : FileNode → Nat
  | .file _ days | .link _ days => days
  | .directory => 0

/-- What a file system holds. -/
structure FileTree where
  entries : List (Location × FileNode)

/-- Why something cannot be done with a path. -/
inductive FileFault where
  | missing
  | alreadyThere
  | noDirectory
  | directory
  | nameTooLong
  | tooManyLinks
  /-- A null character stands in the path. -/
  | nullInPath
  /-- What a file holds is no text. -/
  | notText
  deriving DecidableEq

/-- A fault in words. -/
def FileFault.message : FileFault → String
  | .missing => "No such file or directory (os error 2)"
  | .alreadyThere => "File exists (os error 17)"
  | .noDirectory => "Not a directory (os error 20)"
  | .directory => "Is a directory (os error 21)"
  | .nameTooLong => "File name too long (os error 36)"
  | .tooManyLinks => "Too many levels of symbolic links (os error 40)"
  | .nullInPath => "file name contained an unexpected NUL byte"
  | .notText => "stream did not contain valid UTF-8"

/-- Where a path leads. -/
inductive Destination where
  | found (location : Location)
  /-- There is nothing of this name in an existing directory. -/
  | absent (directory : Location) (name : String)
  | nowhere (fault : FileFault)

namespace FileTree

/-- The tree without any file. -/
def empty : FileTree :=
  ⟨[]⟩

/-- What is at a location.  The root is a directory. -/
def node? (t : FileTree) (l : Location) : Option FileNode :=
  if l.isEmpty then some .directory else t.entries.lookup l

/-- Whether a directory is at a location. -/
def hasDirectory (t : FileTree) (l : Location) : Bool :=
  match t.node? l with
  | some .directory => true
  | _ => false

/-- The content of the file at a location. -/
def content? (t : FileTree) (l : Location) : Option FileContent :=
  match t.node? l with
  | some (.file content _) => some content
  | _ => none

/-- The tree with a node at a location, in the place of what was there before. -/
def insert (t : FileTree) (l : Location) (node : FileNode) : FileTree :=
  ⟨(l, node) :: t.entries.filter (·.1 ≠ l)⟩

/-- The tree without what is at a location. -/
def erase (t : FileTree) (l : Location) : FileTree :=
  ⟨t.entries.filter (·.1 ≠ l)⟩

/-- The names in a directory. -/
def namesIn (t : FileTree) (l : Location) : List String :=
  t.entries.filterMap fun (l', _) =>
    if l'.dropLast = l then l'.getLast? else none

/-- The length in bytes that a name may have. -/
def maxNameSize : Nat := 255

/-- Whether a name is too long for any file system. -/
def isTooLong (name : String) : Bool :=
  maxNameSize < name.utf8ByteSize

/-- Where names lead from a location, through at most so many links. -/
def follow (t : FileTree) (links : Nat) (here : Location) : List String → Destination
  | [] => .found here
  | name :: rest =>
    if !t.hasDirectory here then .nowhere .noDirectory
    else if !Path.counts name then t.follow links here rest
    else if name = ".." then t.follow links here.dropLast rest
    else if isTooLong name then .nowhere .nameTooLong
    else
      match t.node? (here ++ [name]) with
      | none => if rest.isEmpty then .absent here name else .nowhere .missing
      | some (.link target _) =>
        match links with
        | 0 => .nowhere .tooManyLinks
        | links + 1 =>
          t.follow links (if Path.isAbsolute target then [] else here) (Path.names target ++ rest)
      | some _ => t.follow links (here ++ [name]) rest
  termination_by names => (links, names.length)

/-- The number of links that one path may lead through. -/
def maxLinks : Nat := 40

/-- The length in bytes that a path has to stay below. -/
def pathLimit : Nat := 4096

/-- The fault of a path that no file system takes. -/
def pathFault? (path : String) : Option FileFault :=
  if path.toList.contains '\x00' then some .nullInPath
  else if path = "" then some .missing
  else if pathLimit ≤ path.utf8ByteSize then some .nameTooLong
  else none

/-- Where names lead that are those of a path or the first of them. -/
def followPath (t : FileTree) (here : Location) (path : String) (names : List String) :
    Destination :=
  match pathFault? path with
  | some fault => .nowhere fault
  | none => t.follow maxLinks (if Path.isAbsolute path then [] else here) names

/-- Where a path leads from a working directory. -/
def resolve (t : FileTree) (here : Location) (path : String) : Destination :=
  t.followPath here path (Path.names path)

/-- The location of what a path leads to. -/
def locate? (t : FileTree) (here : Location) (path : String) : Option Location :=
  match t.resolve here path with
  | .found l => some l
  | _ => none

/-- Whether a path leads to a directory. -/
def isDirectory (t : FileTree) (here : Location) (path : String) : Bool :=
  (t.locate? here path).any t.hasDirectory

/-- The tree with a new directory at a path, where nothing may be, not even a link. -/
def withDirectory (t : FileTree) (here : Location) (path : String) : Except FileFault FileTree :=
  match (Path.names path).reverse.dropWhile (· = "") with
  | [] => .error .alreadyThere
  | name :: above =>
    match t.followPath here path above.reverse with
    | .nowhere fault => .error fault
    | .absent _ _ => .error .missing
    | .found l =>
      if !t.hasDirectory l then .error .noDirectory
      else if name = "." || name = ".." then .error .alreadyThere
      else if isTooLong name then .error .nameTooLong
      else if (t.node? (l ++ [name])).isSome then .error .alreadyThere
      else .ok (t.insert (l ++ [name]) .directory)

/-- The tree with the directory of the first path.  If that is missing a directory to be in, those of
the other paths, each the parent of the one before it, are made first. -/
def withParents (t : FileTree) (here : Location) : List String → Except FileFault FileTree
  | [] => .ok t
  | path :: parents =>
    let orPresent (t : FileTree) : Except FileFault FileTree → Except FileFault FileTree
      | .error .alreadyThere =>
        if t.isDirectory here path then .ok t else .error .alreadyThere
      | made => made
    match t.withDirectory here path with
    | .error .missing =>
      match t.withParents here parents with
      | .error fault => .error fault
      | .ok t => orPresent t (t.withDirectory here path)
    | made => orPresent t made

/-- The tree with all directories of a path. -/
def withDirectories (t : FileTree) (here : Location) (path : String) :
    Except FileFault FileTree :=
  t.withParents here (Path.lineage path)

/-- The tree with a file of this content at a path, whose directory has to exist. -/
def write (t : FileTree) (here : Location) (path : String) (content : FileContent) (days : Nat) :
    Except FileFault FileTree :=
  if (pathFault? path).isNone && path.toList.getLast? = some '/' then .error .directory
  else
    match t.resolve here path with
    | .found l => if t.hasDirectory l then .error .directory else .ok (t.insert l (.file content days))
    | .absent directory name => .ok (t.insert (directory ++ [name]) (.file content days))
    | .nowhere fault => .error fault

end FileTree

end Cohesion
