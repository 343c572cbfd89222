import Cohesion.Json.Reader

/-!
# Passing over values

A value of any shape is passed over in parts, each of which takes at least one byte off the text.
A `Spot` tells what comes next; the brackets that are open are kept in a list, so that a value may be
nested as deep as it likes.
-/

namespace Cohesion

namespace Json

/-- The brackets that a value can stand in. -/
inductive Bracket where
  | list
  | object
  deriving DecidableEq

namespace Bracket

/-- The closing bracket. -/
def closing : Bracket → Char
  | .list => ']'
  | .object => '\x7d'

/-- The fault of a text that ends inside the bracket. -/
def ended : Bracket → Fault
  | .list => .endOfList
  | .object => .endOfObject

/-- The fault of two items without a comma between them. -/
def noComma : Bracket → Fault
  | .list => .noCommaInList
  | .object => .noCommaInObject

/-- Passes over what stands in front of a value: a key and a colon in an object. -/
def skipKey : Bracket → Reader Unit
  | .list => pure ()
  | .object => do
    unless (← peekOr .endOfObject) = '"' do throw .badKey
    advance
    skipText
    readColon

end Bracket

/-- Where the reader stands while it passes over a value: in front of an inner value, or behind one,
inside so many brackets from the inside out. -/
inductive Spot where
  | before (brackets : List Bracket)
  | behind (bracket : Bracket) (brackets : List Bracket)

/-- The spot in front of a value. -/
def Spot.start : Spot :=
  .before []

/-- What comes after an inner value: nothing if no bracket is open. -/
def Spot.after : List Bracket → Spot ⊕ Unit
  | [] => .inr ()
  | b :: brackets => .inl (.behind b brackets)

/-- Opens a bracket, and passes over it at once if nothing is in it. -/
def openBracket (b : Bracket) (brackets : List Bracket) : Reader (Spot ⊕ Unit) := do
  advance
  if (← peekOr b.ended) = b.closing then
    advance
    return Spot.after brackets
  b.skipKey
  return .inl (.before (b :: brackets))

/-- Passes over a number. -/
def skipNumber : Reader Unit := fun bs =>
  (readNumeral .badNumber bs).map fun (_, rest) => ((), rest)

/-- Passes over the next part of a value, and tells where the reader then stands if the value goes
on. -/
def skipPart : Spot → Reader (Spot ⊕ Unit)
  | .before brackets => do
    match ← peekOr .endOfValue with
    | 'n' => do readWord "null".toList; return Spot.after brackets
    | 't' => do readWord "true".toList; return Spot.after brackets
    | 'f' => do readWord "false".toList; return Spot.after brackets
    | '"' => do advance; skipText; return Spot.after brackets
    | '[' => openBracket .list brackets
    | '\x7b' => openBracket .object brackets
    | c =>
      if c = '-' || c.isDigit then do skipNumber; return Spot.after brackets
      else throw .noValue
  | .behind b brackets => do
    let c ← peekOr b.ended
    if c = ',' then
      advance
      b.skipKey
      return .inl (.before (b :: brackets))
    else if c = b.closing then
      advance
      return Spot.after brackets
    else throw b.noComma

end Json

end Cohesion
