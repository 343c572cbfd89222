import Cohesion.Analysis
import Cohesion.Files.Discovery
import Cohesion.Java.Types

/-!
# Projects

The facts of a project are those of all Java files below its source root.  The syntax tree of a file
comes from a `Grammar`, which knows it from the path and the bytes of the file.
-/

namespace Cohesion

/-- What finds the syntax tree of a source file. -/
abbrev Grammar := String → ByteArray → Option Java.Node

namespace Project

/-- The bytes of a source file, which has to be of a reasonable size. -/
def sourceBytes (e : Environment) (path : String) : Except Failure ByteArray :=
  match e.locate? path with
  | none => .error (.fileNotFound path)
  | some l =>
    match e.files.content? l with
    | none => .error (.io FileFault.directory.message)
    | some content =>
      if maxFileSize < content.size then .error (.fileTooLarge content.size path)
      else .ok content.toBytes

/-- The facts of a source file. -/
def fileFacts (e : Environment) (grammar : Grammar) (path : String) :
    Except Failure Java.FileFacts :=
  match sourceBytes e path with
  | .error failure => .error failure
  | .ok bytes =>
    match grammar path bytes with
    | none => .error (.unparsable path)
    | some root => .ok (Java.extract (.ofBytes bytes) path root)

/-- The location of the directory that a path leads to. -/
def directory (e : Environment) (path : String) : Except Failure Location :=
  match e.locate? path with
  | none => .error (.directoryNotFound path)
  | some l => if e.files.hasDirectory l then .ok l else .error (.notADirectory path)

/-- The facts of the project in a directory. -/
def facts (e : Environment) (grammar : Grammar) (path : String) (glob : Option String) :
    Except Failure ProjectFacts := do
  let project ← directory e path
  let root := Discovery.sourceRoot e project.path
  match Discovery.javaFiles e root glob with
  | .error fault => .error (.io fault.message)
  | .ok files =>
    let facts ← files.mapM fun l => fileFacts e grammar l.path
    return facts.foldl Java.addFile Java.noFacts

/-- The analysis of the project in a directory. -/
def analyze (e : Environment) (grammar : Grammar) (path : String) (glob : Option String) :
    Except Failure Analysis := do
  Analysis.ofFacts (← facts e grammar path glob)

end Project

end Cohesion
