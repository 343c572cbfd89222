import Cohesion.Request

/-!
# Command lines

A `CommandLine` is what the arguments of the program ask for: an answer about some files, a session, or
a new settings file.  Arguments that ask for nothing are refused, and so are those that ask for help
or for the version instead.
-/

namespace Cohesion

/-- The files of the project in a directory, or those of them that match a glob. -/
structure Selection where
  directory : String
  glob : Option String

/-- What a command line asks for. -/
inductive Task where
  | answer (files : Selection) (request : Request)
  | session (files : Selection)
  | newSettings (path : Option String)

/-- What the arguments of the program ask for, and how it is done. -/
structure CommandLine where
  pretty : Bool
  debug : Bool
  /-- The path of the settings file. -/
  settings : Option String
  task : Task

/-- Why arguments are refused. -/
inductive Refusal where
  | helpAsked
  | versionAsked
  | noArguments
  | noCommand
  | unknownCommand (name : String)
  | unknownArgument (argument : String)
  | repeatedOption (option : String)
  | missingValue (option : String)
  | unknownChoice (option value : String)
  | malformedNumber (option value : String)
  /-- An option that has no value is given one. -/
  | surplusValue (option value : String)
  | missingOptions (options : List String)

namespace Refusal

/-- The status with which the program ends. -/
def status : Refusal → Nat
  | .helpAsked | .versionAsked => 0
  | _ => 2

/-- A refusal in words. -/
def message : Refusal → String
  | .helpAsked | .noArguments =>
    "Usage: coupling-lens [OPTIONS] <COMMAND>\n\nCommands: facts, weights, coupling, cluster, "
      ++ "dendrogram, modules, session, init, help\nOptions: --pretty, --debug, --config <CONFIG>"
  | .versionAsked => "coupling-lens 0.3.0"
  | .noCommand => "error: a command is required"
  | .unknownCommand name => "error: unrecognized command '" ++ name ++ "'"
  | .unknownArgument argument => "error: unexpected argument '" ++ argument ++ "' found"
  | .repeatedOption option => "error: '" ++ option ++ "' cannot be used multiple times"
  | .missingValue option => "error: a value is required for '" ++ option ++ "'"
  | .unknownChoice option value | .malformedNumber option value =>
    "error: invalid value '" ++ value ++ "' for '" ++ option ++ "'"
  | .surplusValue option value => "error: unexpected value '" ++ value ++ "' for '" ++ option ++ "'"
  | .missingOptions options => "error: required but not given: " ++ ", ".intercalate options

end Refusal

end Cohesion
