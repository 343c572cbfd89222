import Cohesion.CommandLine
import Cohesion.Decimal.Reader

/-!
# Options

The options of a command line: a `Switch` is there or not, and a `Key` has a value.  A `Scope` says
which of them a command knows, and `Options` holds what is given, each at most once.
-/

namespace Cohesion

/-- An option without a value. -/
inductive Switch where
  | pretty
  | debug
  | help
  | version
  deriving DecidableEq

/-- An option with a value. -/
inductive Key where
  | settings
  | directory
  | glob
  | percent
  | first
  | second
  | steps
  | point
  | mode
  | path
  deriving DecidableEq

namespace Switch

/-- The name of a switch. -/
def text : Switch → String
  | .pretty => "pretty"
  | .debug => "debug"
  | .help => "help"
  | .version => "version"

/-- The letter that stands for a switch. -/
def letter? : Switch → Option Char
  | .help => some 'h'
  | .version => some 'V'
  | _ => none

/-- The switch as an argument. -/
def argument (s : Switch) : String :=
  "--" ++ s.text

end Switch

namespace Key

/-- The name of a key. -/
def text : Key → String
  | .settings => "config"
  | .directory => "dir"
  | .glob => "glob"
  | .percent => "min-percent"
  | .first => "a"
  | .second => "b"
  | .steps => "steps"
  | .point => "cp"
  | .mode => "mode"
  | .path => "path"

/-- The letter that stands for a key. -/
def letter? : Key → Option Char
  | .directory => some 'd'
  | .glob => some 'g'
  | .first => some 'a'
  | .second => some 'b'
  | .path => some 'p'
  | _ => none

/-- The key as an argument. -/
def argument (k : Key) : String :=
  "--" ++ k.text

/-- Whether the next argument is the value of a key even if it is a negative number. -/
def takesNegative : Key → Bool
  | .point => true
  | _ => false

end Key

/-- The options and the commands that may be given. -/
structure Scope where
  switches : List Switch
  keys : List Key
  commands : List String

/-- The options that are given. -/
structure Options where
  pretty : Bool
  debug : Bool
  settings : Option String
  directory : Option String
  glob : Option String
  percent : Option Float
  first : Option String
  second : Option String
  steps : Option Nat
  point : Option Float
  mode : Option CutMode
  path : Option String

namespace Options

/-- No options. -/
def empty : Options :=
  ⟨false, false, none, none, none, none, none, none, none, none, none, none⟩

/-- Whether none of the options is given that every command knows. -/
def saysNothing (o : Options) : Bool :=
  !o.pretty && !o.debug && o.settings.isNone

/-- The options with one more switch. -/
def turnOn (o : Options) (s : Switch) : Except Refusal Options :=
  match s with
  | .pretty => if o.pretty then .error (.repeatedOption s.argument) else .ok { o with pretty := true }
  | .debug => if o.debug then .error (.repeatedOption s.argument) else .ok { o with debug := true }
  | .help => .error .helpAsked
  | .version => .error .versionAsked

/-- A value for a key that has none yet. -/
def once {α : Type} (k : Key) (old : Option α) (new : Except Refusal α) :
    Except Refusal (Option α) :=
  if old.isSome then .error (.repeatedOption k.argument) else new.map some

/-- A path, which is not empty. -/
def readPath (k : Key) (value : String) : Except Refusal String :=
  if value = "" then .error (.missingValue k.argument) else .ok value

/-- A number. -/
def readNumber {α : Type} (k : Key) (value : String) (number : Option α) : Except Refusal α :=
  number.elim (.error (.malformedNumber k.argument value)) .ok

/-- The direction of a cut. -/
def readMode (k : Key) (value : String) : Except Refusal CutMode :=
  (CutMode.ofText? value).elim (.error (.unknownChoice k.argument value)) .ok

/-- The options with the value of one more key. -/
def put (o : Options) (k : Key) (value : String) : Except Refusal Options := do
  match k with
  | .settings => return { o with settings := ← once k o.settings (readPath k value) }
  | .directory => return { o with directory := ← once k o.directory (.ok value) }
  | .glob => return { o with glob := ← once k o.glob (.ok value) }
  | .percent =>
    let number := readNumber k value (Decimal.readDouble? value)
    return { o with percent := ← once k o.percent number }
  | .first => return { o with first := ← once k o.first (.ok value) }
  | .second => return { o with second := ← once k o.second (.ok value) }
  | .steps =>
    let number := readNumber k value (Decimal.readCount? value)
    return { o with steps := ← once k o.steps number }
  | .point =>
    let number := readNumber k value (Decimal.readDouble? value)
    return { o with point := ← once k o.point number }
  | .mode => return { o with mode := ← once k o.mode (readMode k value) }
  | .path => return { o with path := ← once k o.path (readPath k value) }

end Options

end Cohesion
