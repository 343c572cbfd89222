import Cohesion.Json.Skip
import Cohesion.Module

/-!
# Requests

A `Request` is a question to a running analysis: a command and the values it may need.  It is written
as a JSON object without the values that are absent.  `Request.read` accepts more than that: fields in
any order, unknown fields, `null` for what is absent, a list of all values in their order, and a name
as the key of an object.
-/

namespace Cohesion

/-- What a request asks for. -/
inductive Command where
  | facts
  | weights
  | coupling
  | cluster
  | dendrogram
  | modules
  deriving DecidableEq

/-- The name of a command. -/
def Command.text : Command → String
  | .facts => "facts"
  | .weights => "weights"
  | .coupling => "coupling"
  | .cluster => "cluster"
  | .dendrogram => "dendrogram"
  | .modules => "modules"

/-- All commands in their order. -/
def Command.all : List Command :=
  [.facts, .weights, .coupling, .cluster, .dendrogram, .modules]

/-- All directions of a cut in their order. -/
def CutMode.all : List CutMode :=
  [.similarity, .distance]

/-- A question to a running analysis. -/
structure Request where
  command : Command
  point : Option Float
  mode : Option CutMode
  first : Option String
  second : Option String
  percent : Option Float
  steps : Option Nat
  deriving DecidableEq

namespace Request

/-- The values that a request can hold. -/
inductive Field where
  | command
  | point
  | mode
  | first
  | second
  | percent
  | steps
  deriving DecidableEq

/-- The name of a value. -/
def Field.name : Field → String
  | .command => "command"
  | .point => "cp"
  | .mode => "mode"
  | .first => "a"
  | .second => "b"
  | .percent => "min_percent"
  | .steps => "steps"

/-- All values in their order. -/
def Field.all : List Field :=
  [.command, .point, .mode, .first, .second, .percent, .steps]

/-- The value of a name. -/
def Field.ofName? (name : String) : Option Field :=
  all.find? (·.name = name)

/-- The request as a JSON value. -/
def toJson (r : Request) : Json :=
  .present [(Field.command.name, some (.text r.command.text)),
    (Field.point.name, r.point.map .number), (Field.mode.name, r.mode.map (.text ·.text)),
    (Field.first.name, r.first.map .text), (Field.second.name, r.second.map .text),
    (Field.percent.name, r.percent.map .number), (Field.steps.name, r.steps.map .nat)]

/-- What is read of a request so far. -/
structure Draft where
  fields : List Field
  command : Option Command
  point : Option Float
  mode : Option CutMode
  first : Option String
  second : Option String
  percent : Option Float
  steps : Option Nat

/-- The draft before anything is read. -/
def Draft.empty : Draft :=
  ⟨[], none, none, none, none, none, none, none⟩

/-- The request of a draft, which needs a command. -/
def Draft.finish (d : Draft) : Except Json.Fault Request :=
  match d.command with
  | none => .error (.missingField Field.command.name)
  | some command => .ok ⟨command, d.point, d.mode, d.first, d.second, d.percent, d.steps⟩

open Json (Reader peek peekOr advance readWord readText readNumber readColon refuse)

/-- A value, or nothing for `null`. -/
def readOption {α : Type} (reader : Reader α) : Reader (Option α) := do
  if (← peek) = some 'n' then
    readWord "null".toList
    return none
  return some (← reader)

/-- A double. -/
def readFloat : Reader Float := do
  let c ← peekOr .endOfValue
  if c = '-' || c.isDigit then return (← readNumber).toFloat else refuse .number

/-- A natural number that is not written as a double. -/
def readCount : Reader Nat := do
  let c ← peekOr .endOfValue
  if c = '-' || c.isDigit then
    match ← readNumber with
    | .natural n => return n
    | .negative n => throw (.negativeCount n)
    | .double x => throw (.wrongType (.double x) .count)
  else refuse .count

/-- A text. -/
def readString : Reader String := do
  if (← peekOr .endOfValue) = '"' then
    advance
    readText
  else refuse .text

/-- One of some names, whose opening quotation mark is taken. -/
def readName {α : Type} (choices : List α) (text : α → String) : Reader α := do
  let name ← readText
  match choices.find? (text · = name) with
  | some choice => return choice
  | none => throw (.unknownVariant name (choices.map text))

/-- Nothing, which is written as `null`. -/
def readNothing : Reader Unit := do
  if (← peekOr .endOfValue) = 'n' then readWord "null".toList else refuse .nothing

/-- The opening quotation mark of the first key of an object, which has to have one. -/
def readFirstKey : Reader Unit := do
  match ← peekOr .endOfObject with
  | '"' => advance
  | '\x7d' => throw .noValue
  | _ => throw .badKey

/-- One of some names, as a text or as the only key of an object that holds `null`. -/
def readChoice {α : Type} (choices : List α) (text : α → String) : Reader α := do
  match ← peekOr .endOfValue with
  | '"' => do
    advance
    readName choices text
  | '\x7b' => do
    advance
    readFirstKey
    let choice ← readName choices text
    readColon
    readNothing
    if (← peekOr .endOfObject) = '\x7d' then
      advance
      return choice
    throw .noValue
  | _ => throw .noValue

/-- The value of a field. -/
def readField (d : Draft) (field : Field) : Reader Draft := do
  let d := { d with fields := field :: d.fields }
  match field with
  | .command => return { d with command := some (← readChoice Command.all Command.text) }
  | .point => return { d with point := ← readOption readFloat }
  | .mode => return { d with mode := ← readOption (readChoice CutMode.all CutMode.text) }
  | .first => return { d with first := ← readOption readString }
  | .second => return { d with second := ← readOption readString }
  | .percent => return { d with percent := ← readOption readFloat }
  | .steps => return { d with steps := ← readOption readCount }

/-- The key of the next member of an object, if there is one.  Its opening quotation mark is taken,
the rest of it is not. -/
def nextKey (isFirst : Bool) : Reader Bool := do
  let c ← peekOr .endOfObject
  if c = '\x7d' then
    advance
    return false
  else if isFirst then
    unless c = '"' do throw .badKey
    advance
    return true
  else if c = ',' then
    advance
    match ← peekOr .endOfValue with
    | '"' => do advance; return true
    | '\x7d' => throw .trailingComma
    | _ => throw .badKey
  else throw .noCommaInObject

/-- What comes next in an object: a member, or the rest of a value that is passed over. -/
inductive Progress where
  | member (isFirst : Bool) (draft : Draft)
  | skipping (spot : Json.Spot) (draft : Draft)

/-- Takes the next part of an object, and gives the request at its end. -/
def readPart : Progress → Reader (Progress ⊕ Request)
  | .skipping spot d => do
    match ← Json.skipPart spot with
    | .inl spot => return .inl (.skipping spot d)
    | .inr () => return .inl (.member false d)
  | .member isFirst d => do
    if ← nextKey isFirst then
      let name ← readText
      match Field.ofName? name with
      | some field =>
        if field ∈ d.fields then throw (.repeatedField name)
        readColon
        return .inl (.member false (← readField d field))
      | none =>
        readColon
        return .inl (.skipping .start d)
    else return .inr (← d.finish)

/-- Whether another item of a list follows. -/
def nextItem (isFirst : Bool) : Reader Bool := do
  let c ← peekOr .endOfList
  if c = ']' then return false
  else if isFirst then return true
  else if c = ',' then
    advance
    if (← peekOr .endOfValue) = ']' then throw .trailingComma
    return true
  else throw .noCommaInList

/-- The values of these fields one after the other. -/
def readItems : List Field → Draft → Reader Draft
  | [], d => return d
  | field :: fields, d => do
    unless ← nextItem d.fields.isEmpty do throw (.wrongLength d.fields.length)
    readItems fields (← readField d field)

/-- The end of the list of all values. -/
def readListEnd : Reader Unit := do
  match ← peekOr .endOfList with
  | ']' => advance
  | ',' => do
    advance
    if (← peek) = some ']' then throw .trailingComma else throw .trailingCharacters
  | _ => throw .trailingCharacters

/-- A request. -/
def reader : Reader Request := do
  match ← peekOr .endOfValue with
  | '\x7b' => do
    advance
    Json.repeatUntilDone readPart (.member true Draft.empty)
  | '[' => do
    advance
    let d ← readItems Field.all Draft.empty
    readListEnd
    d.finish
  | _ => refuse .request

/-- The request that some bytes hold. -/
def read (text : List UInt8) : Except Json.Fault Request :=
  Json.readAll reader text

end Request

end Cohesion
