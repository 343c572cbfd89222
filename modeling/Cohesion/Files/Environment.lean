import Cohesion.Files.Tree

/-!
# Environments

An `Environment` is what a program finds around it when it starts: the files, the directory it works
in, and the directories of the user.
-/

namespace Cohesion

/-- The surroundings of a program. -/
structure Environment where
  files : FileTree
  workingDirectory : Location
  home : String
  /-- The directory for settings, if it is not the usual one below the home directory. -/
  settingsHome : Option String

namespace Environment

/-- The location of what a path leads to from the working directory. -/
def locate? (e : Environment) (path : String) : Option Location :=
  e.files.locate? e.workingDirectory path

/-- The content of the file that a path leads to. -/
def content? (e : Environment) (path : String) : Option FileContent :=
  (e.locate? path).bind e.files.content?

/-- Whether a path leads to a directory. -/
def isDirectory (e : Environment) (path : String) : Bool :=
  e.files.isDirectory e.workingDirectory path

/-- The directory in which programs keep the settings of the user. -/
def settingsDirectory (e : Environment) : String :=
  match e.settingsHome with
  | some directory => if directory = "" then Path.join e.home ".config" else directory
  | none => Path.join e.home ".config"

end Environment

end Cohesion
