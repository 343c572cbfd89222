import Cohesion.CommandLine.Reader
import Cohesion.Files.Listing
import Cohesion.Java.Listing
import Cohesion.Program

/-!
# The command

The command reads its arguments, its surroundings and its input, runs the program, and carries out what
the run leaves behind.  The files it knows are those of the listing that the environment variable
`COUPLING_LENS_FILES` names, and the settings file.  The syntax tree of a Java file is in a listing
next to the file, with `.tree` added to its name.
-/

namespace Cohesion

namespace Main

/-- The bytes of a file, if it can be read. -/
def readFile? (path : String) : IO (Option ByteArray) := do
  match ← (IO.FS.readBinFile path).toBaseIO with
  | .ok bytes => return some bytes
  | .error _ => return none

/-- The text of a file, if it can be read. -/
def readText? (path : String) : IO (Option String) := do
  return (← readFile? path).bind String.fromUTF8?

/-- The tree with a file that can be read. -/
def addFile (t : FileTree) (path : String) (days : Nat) : IO FileTree := do
  match ← readFile? path with
  | some bytes => return t.place path (.file (.bytes bytes) days)
  | none => return t

/-- The tree with what a line of a listing names. -/
def addListed (t : FileTree) (line : String) : IO FileTree := do
  match listed? line with
  | some (path, .directory) => return t.place path .directory
  | some (path, .link target days) => return t.place path (.link target days)
  | some (path, .file days) => addFile t path days
  | none => return t

/-- The surroundings of the command. -/
def readEnvironment (settings : Option String) : IO Environment := do
  let here := toString (← IO.currentDir)
  let home := (← IO.getEnv "HOME").getD "."
  let listing ← match ← IO.getEnv "COUPLING_LENS_FILES" with
    | some path => readText? path
    | none => pure none
  let listed ← ((listing.getD "").splitOn "\n").foldlM addListed (FileTree.empty.place here .directory)
  let bare : Environment :=
    ⟨listed, Path.names here |>.filter Path.counts, home, ← IO.getEnv "XDG_CONFIG_HOME"⟩
  let path := Path.join here (settings.getD (Settings.standardPath bare))
  return { bare with files := ← addFile listed path 0 }

/-- The syntax trees of the Java files of a tree. -/
def readTrees (t : FileTree) : IO (List (String × Java.Node)) := do
  let paths := (t.entries.map (·.1.path)).filter fun path => Path.suffix? path = some "java"
  let trees ← paths.mapM fun path => do
    return ((← readText? (path ++ ".tree")).bind Java.Node.ofListing?).map (path, ·)
  return trees.filterMap id

/-- All bytes of an input after those of `done`. -/
partial def readInput (input : IO.FS.Stream) (done : ByteArray) : IO ByteArray := do
  let bytes ← input.read 65536
  if bytes.isEmpty then return done else readInput input (done ++ bytes)

/-- Makes a change to the files. -/
def carryOut (l : Location) : FileNode → IO Unit
  | .directory => IO.FS.createDirAll l.path
  | .file content _ => IO.FS.writeBinFile l.path content.toBytes
  | .link _ _ => return

/-- Runs the program for a command line. -/
def run (c : CommandLine) : IO UInt32 := do
  let e ← readEnvironment c.settings
  let trees ← readTrees e.files
  let input ← match c.task with
    | .session _ => readInput (← IO.getStdin) ByteArray.empty
    | _ => pure ByteArray.empty
  let out := Program.run e (fun path _ => trees.lookup path) input.toList c
  for l in e.files.removals out.files do
    IO.FS.removeFile l.path
  for (l, node) in e.files.changes out.files do
    carryOut l node
  for text in out.output do
    IO.println text
  for text in out.messages do
    IO.eprintln text
  return out.status.toUInt32

end Main

end Cohesion

/-- The command with its arguments. -/
def main (args : List String) : IO UInt32 := do
  match Cohesion.CommandLine.read args with
  | .ok c => Cohesion.Main.run c
  | .error refusal =>
    if refusal.status = 0 then IO.println refusal.message else IO.eprintln refusal.message
    return refusal.status.toUInt32
