import Cohesion.Decimal.Text
import Cohesion.Json

/-!
# Writing JSON text

`Json.compact` writes a value on one line without blanks, and `Json.pretty` writes every item and
member on a line of its own, indented by two blanks for each level.  Quotation marks, backslashes and
control characters in texts are escaped, everything else stands for itself; in particular a compact
text never holds a line break.
-/

namespace Cohesion

/-- Doubles from `0.00001` up to below `10 ^ 16` are written without an exponent and with at least
one digit after the point, and what is no finite number is written as `null`. -/
def NumberStyle.json : NumberStyle where
  plainExponents := some (-5, 15)
  whole := ".0"
  notANumber := "null"
  infinity := "null"
  minusInfinity := "null"

namespace Json

/-- A lower-case hexadecimal digit. -/
def hexDigit (n : Nat) : Char :=
  Nat.digitChar n

/-- A character as it stands in a quoted text. -/
def escape (c : Char) : List Char :=
  if c = '"' then ['\\', '"']
  else if c = '\\' then ['\\', '\\']
  else if c = '\n' then ['\\', 'n']
  else if c = '\r' then ['\\', 'r']
  else if c = '\t' then ['\\', 't']
  else if c = '\x08' then ['\\', 'b']
  else if c = '\x0c' then ['\\', 'f']
  else if c.toNat < 32 then ['\\', 'u', '0', '0', hexDigit (c.toNat / 16), hexDigit (c.toNat % 16)]
  else [c]

/-- A text in quotation marks. -/
def quote (s : String) : String :=
  "\"" ++ String.ofList (s.toList.flatMap escape) ++ "\""

/-- Texts with commas between them, inside a pair of brackets. -/
def bracketed (opening closing : String) (parts : List String) : String :=
  opening ++ ",".intercalate parts ++ closing

mutual

/-- The text of a value on one line without blanks. -/
def compact : Json → String
  | .null => "null"
  | .bool b => if b then "true" else "false"
  | .nat n => toString n
  | .number x => NumberStyle.json.text x
  | .text s => quote s
  | .list items => bracketed "[" "]" (compactItems items)
  | .object members => bracketed "\x7b" "\x7d" (compactMembers members)

/-- The texts of the items of a list. -/
def compactItems : List Json → List String
  | [] => []
  | item :: items => item.compact :: compactItems items

/-- The texts of the members of an object. -/
def compactMembers : List (String × Json) → List String
  | [] => []
  | (name, value) :: members => (quote name ++ ":" ++ value.compact) :: compactMembers members

end

/-- The blanks that indent a line. -/
def indent (level : Nat) : String :=
  String.ofList (List.replicate (2 * level) ' ')

/-- Texts on lines of their own inside a pair of brackets, which stay together if there are none. -/
def stacked (opening closing : String) (level : Nat) (parts : List String) : String :=
  if parts.isEmpty then opening ++ closing
  else
    opening ++ "\n" ++ ",\n".intercalate (parts.map (indent (level + 1) ++ ·)) ++ "\n"
      ++ indent level ++ closing

mutual

/-- The text of a value over several lines, the first of which is not indented. -/
def prettyAt (level : Nat) : Json → String
  | .list items => stacked "[" "]" level (prettyItems (level + 1) items)
  | .object members => stacked "\x7b" "\x7d" level (prettyMembers (level + 1) members)
  | .null => compact .null
  | .bool b => compact (.bool b)
  | .nat n => compact (.nat n)
  | .number x => compact (.number x)
  | .text s => compact (.text s)

/-- The texts of the items of a list over several lines. -/
def prettyItems (level : Nat) : List Json → List String
  | [] => []
  | item :: items => item.prettyAt level :: prettyItems level items

/-- The texts of the members of an object over several lines. -/
def prettyMembers (level : Nat) : List (String × Json) → List String
  | [] => []
  | (name, value) :: members =>
    (quote name ++ ": " ++ value.prettyAt level) :: prettyMembers level members

end

/-- The text of a value over several lines. -/
def pretty (value : Json) : String :=
  value.prettyAt 0

end Json

end Cohesion
