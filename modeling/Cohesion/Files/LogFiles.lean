import Cohesion.Files.Environment

/-!
# Log files

Log files are kept for three days.  `LogFiles.clean` goes through a directory and removes those that
are older.  A link with the name of a log file counts as one if it leads to a file; it is as old as the
link is, and it is the link that is removed.
-/

namespace Cohesion

namespace LogFiles

/-- What the names of log files start with. -/
def namePart : String := "coupling-lens."

/-- The days after which a log file is removed. -/
def keptDays : Nat := 3

/-- Whether a name is that of a log file. -/
def isLogName (name : String) : Bool :=
  namePart.toList.isPrefixOf name.toList

/-- Whether an entry of the directory that a path leads to is a log file that is no longer kept. -/
def isStale (e : Environment) (path : String) (directory : Location) (name : String) : Bool :=
  (e.content? (Path.join path name)).isSome && isLogName name
    && (e.files.node? (directory ++ [name])).any (keptDays ≤ ·.days)

/-- The files without an entry of a directory, if that is a log file that is no longer kept. -/
def cleanEntry (e : Environment) (path : String) (directory : Location) (t : FileTree)
    (name : String) : FileTree :=
  if isStale { e with files := t } path directory name then t.erase (directory ++ [name]) else t

/-- The files after all entries of the directory that a path leads to are gone through.  An entry is
judged when it is its turn, with those before it removed. -/
def clean (e : Environment) (path : String) : FileTree :=
  match e.locate? path with
  | none => e.files
  | some directory =>
    if e.files.hasDirectory directory then
      (e.files.namesIn directory).foldl (cleanEntry e path directory) e.files
    else e.files

end LogFiles

end Cohesion
