import Cohesion.Json.Printer
import Cohesion.Text.Printable

/-!
# Faults of a text

A `Json.Fault` is the reason why a text cannot be read: it is no JSON text, or it is one of another
shape than expected.  `Fault.message` puts it into words.
-/

namespace Cohesion

namespace Json

/-- What stands where something else is expected. -/
inductive Found where
  | null
  | bool (b : Bool)
  | integer (n : Int)
  | double (x : Float)
  | text (s : String)
  | list
  | object

/-- What is expected. -/
inductive Expected where
  | request
  | number
  | count
  | text
  | nothing
  deriving DecidableEq

/-- Why a text cannot be read. -/
inductive Fault where
  | endOfList
  | endOfObject
  | endOfText
  | endOfValue
  | noColon
  | noCommaInList
  | noCommaInObject
  | badWord
  | noValue
  | badEscape
  | badNumber
  | outOfRange
  /-- One half of a surrogate pair stands alone. -/
  | halfPair
  /-- The second half of a surrogate pair is not written as an escape. -/
  | brokenPair
  | controlCharacter
  /-- The bytes of a quoted text are no text. -/
  | notText
  | badKey
  | trailingComma
  | trailingCharacters
  | wrongType (found : Found) (expected : Expected)
  | negativeCount (n : Int)
  | unknownVariant (name : String) (known : List String)
  | missingField (name : String)
  | repeatedField (name : String)
  | wrongLength (length : Nat)

/-- What was found, in words. -/
def Found.message : Found → String
  | .null => "null"
  | .bool b => "boolean `" ++ (Json.bool b).compact ++ "`"
  | .integer n => "integer `" ++ toString n ++ "`"
  | .double x => "floating point `" ++ NumberStyle.json.text x ++ "`"
  | .text s => "string " ++ shown s
  | .list => "sequence"
  | .object => "map"

/-- What was expected, in words. -/
def Expected.message : Expected → String
  | .request => "struct SessionRequest"
  | .number => "f64"
  | .count => "usize"
  | .text => "a string"
  | .nothing => "unit"

/-- Names to choose from, in words: two are joined by `or`, more are listed. -/
def choice (names : List String) : String :=
  match names.map fun name => "`" ++ name ++ "`" with
  | [a, b] => a ++ " or " ++ b
  | quoted => "one of " ++ ", ".intercalate quoted

/-- A fault in words. -/
def Fault.message : Fault → String
  | .endOfList => "EOF while parsing a list"
  | .endOfObject => "EOF while parsing an object"
  | .endOfText => "EOF while parsing a string"
  | .endOfValue => "EOF while parsing a value"
  | .noColon => "expected `:`"
  | .noCommaInList => "expected `,` or `]`"
  | .noCommaInObject => "expected `,` or `\x7d`"
  | .badWord => "expected ident"
  | .noValue => "expected value"
  | .badEscape => "invalid escape"
  | .badNumber => "invalid number"
  | .outOfRange => "number out of range"
  | .halfPair => "lone leading surrogate in hex escape"
  | .brokenPair => "unexpected end of hex escape"
  | .controlCharacter =>
    "control character (\\u0000-\\u001F) found while parsing a string"
  | .notText => "invalid unicode code point"
  | .badKey => "key must be a string"
  | .trailingComma => "trailing comma"
  | .trailingCharacters => "trailing characters"
  | .wrongType found expected =>
    "invalid type: " ++ found.message ++ ", expected " ++ expected.message
  | .negativeCount n => "invalid value: integer `" ++ toString n ++ "`, expected usize"
  | .unknownVariant name known => "unknown variant `" ++ name ++ "`, expected " ++ choice known
  | .missingField name => "missing field `" ++ name ++ "`"
  | .repeatedField name => "duplicate field `" ++ name ++ "`"
  | .wrongLength length =>
    "invalid length " ++ toString length ++ ", expected struct SessionRequest with 7 elements"

end Json

end Cohesion
