import Cohesion.Json.Numeral
import Cohesion.Json.QuotedText
import Cohesion.Text.Lines

/-!
# Reading JSON text

A `Reader` takes something off the front of a text and returns it with the rest of the text.  The text
is given as bytes, which need not be UTF-8 where a value is passed over.  There
are readers for spaces, words, quoted texts and numbers, and `refuse` for a value of the wrong type.
`repeatStep` is the loop behind readers of many parts; it calls itself last, so that a long text does
not need a deep stack.
-/

namespace Cohesion

namespace Json

/-- What reads something off the front of a text. -/
abbrev Reader := StateT (List UInt8) (Except Fault)

/-- Whether a byte may stand between the tokens of a JSON text. -/
def isSpace (b : UInt8) : Bool :=
  [' ', '\n', '\t', '\r'].contains (Char.ofUInt8 b)

/-- The next character that is no space, which is not taken.  A byte beyond 127 is shown as some
character that no token starts with. -/
def peek : Reader (Option Char) := fun bs =>
  let bs := bs.dropWhile isSpace
  .ok (bs.head?.map Char.ofUInt8, bs)

/-- The next character that is no space, or a fault at the end of the text. -/
def peekOr (ended : Fault) : Reader Char := do
  match ← peek with
  | some c => pure c
  | none => throw ended

/-- Takes one byte. -/
def advance : Reader Unit := fun bs => .ok ((), bs.drop 1)

/-- The characters of a word. -/
def readWord : List Char → Reader Unit
  | [], bs => .ok ((), bs)
  | _ :: _, [] => .error .endOfValue
  | expected :: more, b :: bs => if Char.ofUInt8 b = expected then readWord more bs else .error .badWord

/-- Repeats a step until it has a result.  A text that is read to its end ends the repetition too. -/
def repeatStep {σ α : Type} (step : σ → Reader (σ ⊕ α)) : Nat → σ → Reader α
  | 0, _, _ => .error .endOfValue
  | steps + 1, s, bs =>
    match step s bs with
    | .error fault => .error fault
    | .ok (.inr result, rest) => .ok (result, rest)
    | .ok (.inl next, rest) => repeatStep step steps next rest

/-- Repeats a step that takes at least one byte each time. -/
def repeatUntilDone {σ α : Type} (step : σ → Reader (σ ⊕ α)) (s : σ) : Reader α := fun bs =>
  repeatStep step (bs.length + 1) s bs

/-- A text whose first quotation mark is taken. -/
def readText : Reader String := fun bs =>
  match textUpToQuote readEscape [] bs with
  | .error fault => .error fault
  | .ok (bytes, rest) =>
    match textOfBytes? bytes with
    | none => .error .notText
    | some s => .ok (s, rest)

/-- Passes over a text whose first quotation mark is taken. -/
def skipText : Reader Unit := fun bs =>
  (textUpToQuote skipEscape [] bs).map fun (_, rest) => ((), rest)

/-- A number. -/
def readNumber : Reader Number := fun bs => do
  let (numeral, rest) ← readNumeral .endOfValue bs
  return (← numeral.value, rest)

/-- The colon between a key and its value. -/
def readColon : Reader Unit := do
  if (← peekOr .endOfObject) = ':' then advance else throw .noColon

/-- Refuses a value of another type than expected.  A value that cannot be read is refused for that
reason. -/
def refuse {α : Type} (expected : Expected) : Reader α := do
  let found : Found ← match ← peek with
    | some 'n' => do readWord "null".toList; pure .null
    | some 't' => do readWord "true".toList; pure (.bool true)
    | some 'f' => do readWord "false".toList; pure (.bool false)
    | some '"' => do advance; pure (.text (← readText))
    | some '[' => pure .list
    | some '\x7b' => pure .object
    | some c =>
      if c = '-' || c.isDigit then do pure (← readNumber).found else throw .noValue
    | none => throw .noValue
  throw (.wrongType found expected)

/-- What a whole text holds, with nothing but spaces around it. -/
def readAll {α : Type} (reader : Reader α) (text : List UInt8) : Except Fault α := do
  let (value, rest) ← reader text
  if (rest.dropWhile isSpace).isEmpty then return value else throw .trailingCharacters

end Json

end Cohesion
