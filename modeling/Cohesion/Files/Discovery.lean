import Cohesion.Files.Repository
import Cohesion.Files.UserRules

/-!
# Finding source files

The sources of a project are the Java files below its source root.  Hidden files are left out, and so
are those that ignore files or a glob leave out, with everything inside of a directory that is left
out.  `Discovery.javaFiles` lists them in the order of their locations, each once.
-/

namespace Cohesion

/-- Why the files below a directory cannot be listed. -/
inductive DiscoveryFault where
  | noSuchRoot (path : String)
  | badGlob (glob : String) (fault : GlobFault)
  | deepGlob (fault : NestingFault)
  /-- Something is wrong with ignore files above the directory. -/
  | badRules (faults : List IgnoreFault)

/-- A fault in words. -/
def DiscoveryFault.message : DiscoveryFault → String
  | .noSuchRoot path =>
    path ++ ": IO error for operation on " ++ path ++ ": No such file or directory (os error 2)"
  | .badGlob glob fault => IgnoreRule.faultMessage glob fault
  | .deepGlob fault => fault.message
  | .badRules faults => "\n".intercalate (faults.map IgnoreFault.message)

namespace Discovery

/-- The usual places for sources in a project, the most specific one first. -/
def sourceRoots : List String :=
  ["src/main/java", "src/java", "src"]

/-- The source root of a project: the first usual place that is a directory, or the project itself. -/
def sourceRoot (e : Environment) (project : String) : String :=
  ((sourceRoots.map (Path.join project)).find? e.isDirectory).getD project

/-- The fronts of a list of names, the shortest first. -/
def fronts (names : List String) : List (List String) :=
  (List.range (names.length + 1)).map names.take

/-- The locations above a location, from the inside out. -/
def above (l : Location) : List Location :=
  (fronts l).dropLast.reverse

/-- The path of a location relative to one above it. -/
def relativePath (l directory : Location) : String :=
  "/".intercalate (l.drop directory.length)

/-- The rules of a file of this name in a directory, and what is wrong with it. -/
def rulesNamed (e : Environment) (name : String) (directory : Location) :
    List IgnoreRule × List IgnoreFault :=
  IgnoreRules.ofFile e (Path.join directory.path name)

/-- The verdict of the innermost directory that has one, from the rules that each of them has. -/
def verdictIn? (directories : List Location)
    (rules : Location → List IgnoreRule × List IgnoreFault) (l : Location) (isDirectory : Bool) :
    Option Verdict :=
  directories.findSome? fun directory =>
    IgnoreRules.verdict? (rules directory).1 (relativePath l directory) isDirectory

/-- The verdict of all ignore files on a location, which `path` leads to.  Plain ignore files come
before those of a repository, and these before the one of the user. -/
def verdict? (e : Environment) (path : String) (l : Location) (isDirectory : Bool) :
    Option Verdict :=
  let repository := Repository.upToTop e (above l)
  let byUser := fun (_ : Unit) =>
    if repository.isEmpty then none
    else IgnoreRules.verdict? (UserRules.rules e) (UserRules.relativePath e path) isDirectory
  ((verdictIn? (above l) (rulesNamed e ".ignore") l isDirectory).orElse fun _ =>
    (verdictIn? repository (rulesNamed e ".gitignore") l isDirectory).orElse fun _ =>
    (verdictIn? repository (Repository.privateRules e) l isDirectory).orElse byUser)

/-- The verdict of a glob that selects files, which is a rule with the opposite sense.  A file that no
rule matches is left out if there is a rule that selects others. -/
def selection? (rules : List IgnoreRule) (path : String) (isDirectory : Bool) : Option Verdict :=
  match IgnoreRules.verdict? rules path isDirectory with
  | some .leaveOut => some .keep
  | some .keep => some .leaveOut
  | none =>
    if !isDirectory && rules.any (·.verdict = .leaveOut) then some .leaveOut else none

/-- Whether a name is hidden. -/
def isHidden (name : String) : Bool :=
  name.toList.head? = some '.'

/-- Whether what these names lead to below the root is listed, if what is above it is. -/
def isListed (e : Environment) (selection : List IgnoreRule) (root : Location) (rootPath : String)
    (names : List String) (isDirectory : Bool) : Bool :=
  let relative := "/".intercalate names
  let verdict := (selection? selection relative isDirectory).orElse fun _ =>
    verdict? e (Path.join rootPath relative) (root ++ names) isDirectory
  match verdict with
  | some .keep => true
  | some .leaveOut => false
  | none => !(names.getLast?.any isHidden)

/-- Whether a file below the root is listed, and so all directories on the way to it. -/
def isReached (e : Environment) (selection : List IgnoreRule) (root : Location) (rootPath : String)
    (names : List String) : Bool :=
  (fronts names).tail.all fun front =>
    isListed e selection root rootPath front (front.length < names.length)

/-- Whether a name is that of a Java file. -/
def isJava (name : String) : Bool :=
  Path.suffix? name = some "java"

/-- What is wrong with the ignore files above a location, from the outside in. -/
def faultsAbove (e : Environment) (l : Location) : List IgnoreFault :=
  (above l).reverse.flatMap fun directory =>
    [rulesNamed e ".ignore", rulesNamed e ".gitignore", Repository.privateRules e].flatMap
      fun rules => (rules directory).2

/-- The rules of a glob that selects files, and none without a glob. -/
def selectionRules (glob : Option String) : Except DiscoveryFault (List IgnoreRule) :=
  match glob with
  | none => .ok []
  | some text =>
    match IgnoreRule.ofLine? false text with
    | .error (glob, fault) => .error (.badGlob glob fault)
    | .ok none => .ok []
    | .ok (some rule) =>
      match nestingFault? [rule.glob] with
      | some fault => .error (.deepGlob fault)
      | none => .ok [rule]

/-- The Java files below a directory, of which a glob selects some. -/
def javaFilesBelow (e : Environment) (selection : List IgnoreRule) (root : Location)
    (rootPath : String) : List Location :=
  e.files.entries.filterMap fun (l, node) =>
    match node, root.isPrefixOf? l with
    | .file _ _, some names =>
      if (names.getLast?.any isJava) && isReached e selection root rootPath names then some l
      else none
    | _, _ => none

/-- The Java files at or below a path, of which a glob selects some, in the order of their
locations. -/
def javaFiles (e : Environment) (root : String) (glob : Option String) :
    Except DiscoveryFault (List Location) :=
  match selectionRules glob with
  | .error fault => .error fault
  | .ok selection =>
    match e.locate? root with
    | none => .error (.noSuchRoot root)
    | some l =>
      if e.files.hasDirectory l then
        match faultsAbove e l with
        | [] => .ok ((javaFilesBelow e selection l root).mergeSort Location.isAtMost)
        | faults => .error (.badRules faults)
      else if (Path.parts root).getLast?.any isJava then .ok [l]
      else .ok []

end Discovery

end Cohesion
