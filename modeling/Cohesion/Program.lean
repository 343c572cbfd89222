import Cohesion.CommandLine
import Cohesion.Files.LogFiles
import Cohesion.Json.Printer
import Cohesion.LogFilter
import Cohesion.Project
import Cohesion.Response
import Cohesion.Session
import Cohesion.Settings
import Cohesion.Text.Printable

/-!
# The program

`Program.run` does what a command line asks for.  The settings come first, and with them the place for
logs if there are any; a fault in either ends the run.  What a run writes is an `Outcome`: lines of
output and of messages, and the files as they are afterwards.
-/

namespace Cohesion

/-- What a run of the program leaves behind. -/
structure Outcome where
  status : Nat
  output : List String
  messages : List String
  files : FileTree

namespace Program

/-- A run that fails is answered with its failure. -/
def fail (files : FileTree) (written : List String) (failure : Failure) : Outcome :=
  ⟨1, written ++ [failure.answer.sortKeys.compact], [], files⟩

/-- The files when logs are made ready: their place is there and holds no old ones, and the filter of
the settings makes sense.  Old logs are removed even if the filter makes none. -/
def prepareLogs (e : Environment) (s : Settings) : FileTree × Except Failure Unit :=
  match e.files.withDirectories e.workingDirectory s.logPath with
  | .error fault => (e.files, .error (.io fault.message))
  | .ok files =>
    let kept := LogFiles.clean { e with files := files } s.logPath
    match LogFilter.fault? s.logLevel with
    | none => (kept, .ok ())
    | some fault =>
      (kept, .error (.io ("Invalid log_level " ++ shown s.logLevel ++ ": " ++ fault.message)))

/-- The cut of the settings. -/
def standardCut (s : Settings) : Cut Float :=
  ⟨s.point, s.mode⟩

/-- The glob of a selection, or else that of the settings. -/
def chosenGlob (s : Settings) (files : Selection) : Option String :=
  files.glob.orElse fun _ => s.glob

/-- The answer to a request about some files.  Facts are given without an analysis. -/
def answer (e : Environment) (grammar : Grammar) (s : Settings) (files : Selection)
    (request : Request) : Except Failure Json :=
  let glob := chosenGlob s files
  match request.command with
  | .facts => (Project.facts e grammar files.directory glob).map ProjectFacts.toJson
  | _ => do
    let analysis ← Project.analyze e grammar files.directory glob
    analysis.respond (standardCut s) request

/-- Does a task. -/
def perform (e : Environment) (grammar : Grammar) (input : List UInt8) (s : Settings) (pretty : Bool) :
    Task → Outcome
  | .answer files request =>
    match answer e grammar s files request with
    | .error failure => fail e.files [] failure
    | .ok answer => ⟨0, [if pretty then answer.pretty else answer.compact], [], e.files⟩
  | .session files =>
    match Project.analyze e grammar files.directory (chosenGlob s files) with
    | .error failure => fail e.files [] failure
    | .ok analysis =>
      let transcript := Session.run (analysis.respond (standardCut s)) input
      match transcript.failure with
      | some failure => fail e.files transcript.lines failure
      | none => ⟨0, transcript.lines, [], e.files⟩
  | .newSettings path =>
    let path := path.getD (Settings.standardPath e)
    match Settings.generate e path with
    | .error fault => fail e.files [] (.io fault.message)
    | .ok files => ⟨0, [], ["Configuration file created at: " ++ path], files⟩

/-- Does what a command line asks for. -/
def run (e : Environment) (grammar : Grammar) (input : List UInt8) (c : CommandLine) : Outcome :=
  match Settings.load e c.settings with
  | .error fault => fail e.files [] (.io fault.message)
  | .ok s =>
    let (files, logs) := if c.debug || s.debug then prepareLogs e s else (e.files, .ok ())
    match logs with
    | .error failure => fail files [] failure
    | .ok () => perform { e with files := files } grammar input s c.pretty c.task

end Program

end Cohesion
