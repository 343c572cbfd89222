import Cohesion.CommandLine.Options

/-!
# Reading command lines

Arguments are read from the left.  Options may stand in front of the command and after it; those in
front are the ones that every command knows.  A value follows its key in the same argument or as the
next one, and it is looked at when the next option comes or the arguments end.
-/

namespace Cohesion

/-! ### Arguments -/

/-- The form of an argument. -/
inductive Argument where
  /-- Two dashes, after which there are no options. -/
  | dashes
  | long (name : String) (value : Option String)
  | short (letters : List Char)
  | plain

namespace Argument

/-- The form of a text. -/
def ofText (s : String) : Argument :=
  match s.toList with
  | ['-', '-'] => .dashes
  | '-' :: '-' :: cs =>
    let value := match cs.dropWhile (· ≠ '=') with
      | _ :: value => some (String.ofList value)
      | [] => none
    .long (String.ofList (cs.takeWhile (· ≠ '='))) value
  | '-' :: c :: cs => .short (c :: cs)
  | _ => .plain

/-- Whether letters after a dash are a number: digits, perhaps a point and more digits, and perhaps an
exponent without a sign. -/
def isNumber (letters : List Char) : Bool :=
  let afterWhole := letters.dropWhile Char.isDigit
  let afterFraction := match afterWhole with
    | '.' :: rest => rest.dropWhile Char.isDigit
    | rest => rest
  letters.head?.any Char.isDigit
    && match afterFraction with
      | [] => true
      | mark :: digits =>
        (mark = 'e' || mark = 'E') && !digits.isEmpty && digits.all Char.isDigit

/-- The value that follows the letter of a key in the same argument. -/
def attached : List Char → Option String
  | [] => none
  | '=' :: value => some (String.ofList value)
  | value => some (String.ofList value)

end Argument

/-! ### Options under way -/

/-- The options so far, of which the last one may still be without its value. -/
structure OptionDraft where
  options : Options
  pending : Option (Key × Option String)

namespace OptionDraft

/-- Nothing read yet. -/
def empty : OptionDraft :=
  ⟨Options.empty, none⟩

/-- The key that has no value yet. -/
def awaiting? (d : OptionDraft) : Option Key :=
  match d.pending with
  | some (key, none) => some key
  | _ => none

/-- The options with the one under way. -/
def settle (d : OptionDraft) : Except Refusal Options :=
  match d.pending with
  | none => .ok d.options
  | some (key, none) => .error (.missingValue key.argument)
  | some (key, some value) => d.options.put key value

/-- The draft with one more switch. -/
def turnOn (d : OptionDraft) (s : Switch) : Except Refusal OptionDraft := do
  return ⟨← (← d.settle).turnOn s, none⟩

/-- The draft with one more key and the value in the same argument, if there is one. -/
def give (d : OptionDraft) (k : Key) (value : Option String) : Except Refusal OptionDraft := do
  let options ← d.settle
  match value with
  | some value => return ⟨← options.put k value, none⟩
  | none => return ⟨options, some (k, none)⟩

/-- The draft after an option by its name. -/
def readLong (scope : Scope) (d : OptionDraft) (name : String) (value : Option String) :
    Except Refusal OptionDraft :=
  match scope.switches.find? (·.text = name), scope.keys.find? (·.text = name), value with
  | some s, _, some value => .error (.surplusValue s.argument value)
  | some s, _, none => d.turnOn s
  | none, some k, value => d.give k value
  | none, none, _ => .error (.unknownArgument ("--" ++ name))

/-- The draft after options by their letters. -/
def readShort (scope : Scope) (d : OptionDraft) : List Char → Except Refusal OptionDraft
  | [] => .ok d
  | c :: cs => do
    match scope.switches.find? (·.letter? = some c), scope.keys.find? (·.letter? = some c) with
    | some s, _ => readShort scope (← d.turnOn s) cs
    | none, some k => d.give k (Argument.attached cs)
    | none, none => throw (.unknownArgument (String.ofList ['-', c]))

end OptionDraft

/-! ### Commands -/

/-- The name of a command. -/
inductive CommandName where
  | request (command : Command)
  | session
  | newSettings

namespace CommandName

/-- All commands in their order. -/
def all : List CommandName :=
  Command.all.map .request ++ [.session, .newSettings]

/-- A command as an argument. -/
def text : CommandName → String
  | .request command => command.text
  | .session => "session"
  | .newSettings => "init"

/-- The keys that only some commands know. -/
def keys : CommandName → List Key
  | .newSettings => [.path]
  | .session => [.directory, .glob]
  | .request command =>
    [.directory, .glob] ++ match command with
      | .facts | .dendrogram => []
      | .weights => [.percent]
      | .coupling => [.first, .second]
      | .cluster => [.steps]
      | .modules => [.point, .mode]

end CommandName

/-- The argument that asks for help in the place of a command. -/
def helpCommand : String := "help"

/-- What may be given in front of a command. -/
def Scope.front : Scope :=
  ⟨[.pretty, .debug, .help, .version], [.settings], CommandName.all.map (·.text) ++ [helpCommand]⟩

/-- What may be given after a command. -/
def CommandName.scope (c : CommandName) : Scope :=
  ⟨[.pretty, .debug, .help], .settings :: c.keys, []⟩

namespace CommandName

/-- The files that options select. -/
def selection (o : Options) : Selection :=
  ⟨o.directory.getD ".", o.glob⟩

/-- What a command asks for with its options. -/
def task (c : CommandName) (o : Options) : Except Refusal Task :=
  match c with
  | .newSettings => .ok (.newSettings o.path)
  | .session => .ok (.session (selection o))
  | .request command =>
    let missing := [(Key.first, o.first), (Key.second, o.second)].filter fun (key, value) =>
      c.keys.contains key && value.isNone
    let percent := match command with
      | .weights => some (o.percent.getD 0.0)
      | _ => none
    if missing.isEmpty then
      .ok (.answer (selection o) ⟨command, o.point, o.mode, o.first, o.second, percent, o.steps⟩)
    else .error (.missingOptions (missing.map (·.1.argument)))

end CommandName

namespace CommandLine

/-- The refusal of an argument that is no option. -/
def refuse (scope : Scope) (argument : String) : Refusal :=
  if scope.commands.isEmpty then .unknownArgument argument else .unknownCommand argument

/-- The refusal of an argument after two dashes. -/
def refuseAfterDashes (scope : Scope) (argument : String) : Refusal :=
  if scope.commands.contains argument then .unknownArgument argument else refuse scope argument

/-- Reads options up to a command.  Gives the command and the arguments after it, if there is one. -/
def scan (scope : Scope) (d : OptionDraft) :
    List String → Except Refusal (OptionDraft × Option (String × List String))
  | [] => .ok (d, none)
  | arg :: args =>
    match d.awaiting?, Argument.ofText arg with
    | _, .dashes =>
      match args with
      | [] => .ok (d, none)
      | extra :: _ => .error (refuseAfterDashes scope extra)
    | _, .long name value => do scan scope (← d.readLong scope name value) args
    | some key, .plain => scan scope ⟨d.options, some (key, some arg)⟩ args
    | some key, .short letters => do
      if key.takesNegative && Argument.isNumber letters then
        scan scope ⟨d.options, some (key, some arg)⟩ args
      else scan scope (← d.readShort scope letters) args
    | none, .short letters => do scan scope (← d.readShort scope letters) args
    | none, .plain =>
      if scope.commands.contains arg then .ok (d, some (arg, args))
      else .error (refuse scope arg)

/-- The refusal that answers a call for help on commands.  No command has a command of its own. -/
def refuseHelp : List String → Refusal
  | [] => .helpAsked
  | name :: rest =>
    if !Scope.front.commands.contains name then .unknownCommand name
    else
      match rest with
      | [] => .helpAsked
      | extra :: _ => .unknownCommand extra

/-- The command line that arguments make. -/
def read (args : List String) : Except Refusal CommandLine := do
  let (front, command) ← scan Scope.front .empty args
  match command with
  | none =>
    let options ← front.settle
    throw (if options.saysNothing then .noArguments else .noCommand)
  | some (name, rest) =>
    match CommandName.all.find? (·.text = name) with
    | none => throw (refuseHelp rest)
    | some command =>
      let (after, _) ← scan command.scope .empty rest
      let inner ← after.settle
      let task ← command.task inner
      let outer ← front.settle
      return ⟨outer.pretty || inner.pretty, outer.debug || inner.debug,
        inner.settings.orElse fun _ => outer.settings, task⟩

end CommandLine

end Cohesion
