import Cohesion.Decimal.Reader
import Cohesion.Regex
import Cohesion.Text.Alphanumeric
import Cohesion.Text.Lines

/-!
# Log filters

A log filter is a list of directives with commas between them.  A directive names a part of the
program, a span in square brackets with fields in braces, and after an equals sign the level of what
is logged; each of the three may be left out.  A word alone is a level, or else a part of the program.
A field may name a value, which is a number or else a regular expression.
`LogFilter.fault?` finds the first directive that is none.
-/

namespace Cohesion

namespace LogFilter

/-- What is wrong with a directive. -/
inductive Fault where
  | badDirective
  | badField (fault : Regex.Fault)
  | badLevel
  deriving DecidableEq

/-- The names of the levels, from the one that logs nothing. -/
def levelNames : List String :=
  ["off", "error", "warn", "info", "debug", "trace"]

/-- A fault in words. -/
def Fault.message : Fault → String
  | .badDirective => "invalid filter directive"
  | .badField fault => "invalid field filter: " ++ fault.message
  | .badLevel =>
    "error parsing level filter: expected one of "
      ++ ", ".intercalate (levelNames.map fun name => "\"" ++ name ++ "\"")
      ++ ", or a number 0-5"

/-- Whether a text is a level: nothing, a name or a number. -/
def isLevel (s : String) : Bool :=
  s.isEmpty || levelNames.contains (String.ofList (s.toList.map Char.toLower))
    || (Decimal.readCount? s).any (· < levelNames.length)

/-- Whether a directive can start with a character. -/
def isStart (c : Char) : Bool :=
  ['-', ':', '_'].contains c || isAlphanumeric c

/-- What is left of a directive after its span: nothing, or its level. -/
def afterSpan : List Char → Except Fault (Option (List Char))
  | [] => .ok none
  | '=' :: cs => .ok (some cs)
  | _ => .error .badDirective

/-- The field in front of a rest of a directive.  Its place is counted from the first character of the
directive that is no blank, and it is read there from the start of the directive; so blanks in front
move it to the left. -/
def fieldAt (directive : String) (rest : List Char) : List Char :=
  let place := (trim directive).utf8ByteSize - (String.ofList rest).utf8ByteSize
  let size := (String.ofList (rest.takeWhile (· ≠ '\x7d'))).utf8ByteSize
  ((textOfBytes? (((bytesOf directive).drop place).take size)).getD "").toList

/-- The fault of a field.  Its value is what follows the first equals sign, up to a second. -/
def fieldFault? (cs : List Char) : Option Fault :=
  let value := ((cs.dropWhile (· ≠ '=')).drop 1).takeWhile (· ≠ '=')
  if (Decimal.readDouble? (String.ofList value)).isSome then none
  else (Regex.fault? value).map .badField

/-- The level of a directive after the fields of a span. -/
def levelAfterFields (directive : String) (cs : List Char) : Except Fault (Option (List Char)) :=
  match cs.dropWhile (· ≠ '\x7d') with
  | [] => .error .badDirective
  | _ :: rest =>
    if cs.head? = some '\x7d' then .error .badDirective
    else
      match fieldFault? (fieldAt directive cs), rest with
      | some fault, _ => .error fault
      | none, ']' :: rest => afterSpan rest
      | none, _ => .error .badDirective

/-- The level of a directive after a span. -/
def levelAfterSpan (directive : String) (cs : List Char) : Except Fault (Option (List Char)) :=
  match cs.dropWhile fun c => c ≠ ']' && c ≠ '\x7b' with
  | ']' :: rest => afterSpan rest
  | '\x7b' :: rest => levelAfterFields directive rest
  | _ => .error .badDirective

/-- The level of a directive, if it names one after an equals sign.  Blanks around it do not count. -/
def level (directive : String) : Except Fault (Option (List Char)) :=
  match trimChars directive.toList with
  | [] => .error .badDirective
  | '[' :: rest => levelAfterSpan directive rest
  | c :: rest =>
    if !isStart c then .error .badDirective
    else
      match rest.dropWhile fun c => c ≠ '=' && c ≠ '[' with
      | '=' :: rest => .ok (some rest)
      | '[' :: rest => levelAfterSpan directive rest
      | _ => .ok none

/-- The fault of a directive.  There may be blanks around it only if it names no level. -/
def directiveFault? (s : String) : Option Fault :=
  match level s with
  | .error fault => some fault
  | .ok none => none
  | .ok (some rest) =>
    if trim s = s && isLevel (String.ofList rest) then none else some .badLevel

/-- The fault of the first directive of a filter that has one.  Nothing between commas is no
directive. -/
def fault? (s : String) : Option Fault :=
  ((s.splitOn ",").filter (!·.isEmpty)).findSome? directiveFault?

end LogFilter

end Cohesion
