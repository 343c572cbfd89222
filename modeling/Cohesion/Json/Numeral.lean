import Cohesion.Decimal
import Cohesion.Json.Fault

/-!
# Numbers in JSON text

A `Numeral` holds the digits of a number as they are written, and `Numeral.value` is the number.
Whole numbers that fit into 64 bits are exact.  Every other number becomes a double: the first digits
that fit into 64 bits are rounded to a double, which is then multiplied or divided by a power of ten
and rounded again.
-/

namespace Cohesion

namespace Json

/-- The parts of a number as it is written. -/
structure Numeral where
  negative : Bool
  whole : List Char
  fraction : Option (List Char)
  /-- Whether the exponent is negative, and its digits. -/
  exponent : Option (Bool × List Char)
  deriving DecidableEq

/-- A number: a whole one if it fits, or else a double. -/
inductive Number where
  | natural (n : Nat)
  | negative (n : Int)
  | double (x : Float)

/-- What follows one of some characters at the front of a text. -/
def after? (cs : List Char) : List UInt8 → Option (List UInt8)
  | [] => none
  | b :: bs => if cs.contains (Char.ofUInt8 b) then some bs else none

/-- Whether a number is negative, and what follows its sign. -/
def takeSign (bs : List UInt8) : Bool × List UInt8 :=
  match after? ['-'] bs with
  | some rest => (true, rest)
  | none => (false, (after? ['+'] bs).getD bs)

/-- Whether a byte is a digit. -/
def isDigit (b : UInt8) : Bool :=
  (Char.ofUInt8 b).isDigit

/-- At least one digit, as many as there are.  The fault `ended` is that of a text which ends before
the first one. -/
def readDigits (ended : Fault) (bs : List UInt8) : Except Fault (List Char × List UInt8) :=
  let digits := (bs.takeWhile isDigit).map Char.ofUInt8
  if digits.isEmpty then .error (if bs.isEmpty then ended else .badNumber)
  else .ok (digits, bs.dropWhile isDigit)

/-- A number at the front of a text.  The fault `ended` is that of a text which ends within it. -/
def readNumeral (ended : Fault) (bs : List UInt8) : Except Fault (Numeral × List UInt8) := do
  let afterMinus := after? ['-'] bs
  let negative := afterMinus.isSome
  let (whole, bs) ← readDigits ended (afterMinus.getD bs)
  if whole.head? = some '0' && whole ≠ ['0'] then throw .badNumber
  let (fraction, bs) ← match after? ['.'] bs with
    | some bs => do
      let (digits, bs) ← readDigits ended bs
      pure (some digits, bs)
    | none => pure (none, bs)
  match after? ['e', 'E'] bs with
  | some bs =>
    let (down, bs) := takeSign bs
    let (digits, bs) ← readDigits ended bs
    return (⟨negative, whole, fraction, some (down, digits)⟩, bs)
  | none => return (⟨negative, whole, fraction, none⟩, bs)

/-- As many digits after those of `acc` as fit into 64 bits, and the digits that are left. -/
def keepDigits (acc : Nat) : List Char → Nat × List Char
  | [] => (acc, [])
  | c :: cs =>
    let next := 10 * acc + Decimal.digitValue c
    if next < Nat.pow 2 64 then keepDigits next cs else (acc, c :: cs)

/-- The double nearest to `10 ^ k`. -/
def powerOfTen (k : Nat) : Float :=
  Decimal.nearest ⟨1, k⟩

/-- A double times `10 ^ exponent`, with one rounding for up to 308 places, and nothing if that is
too large. -/
def scale (x : Float) (exponent : Int) : Option Float :=
  if x == 0.0 then some x
  else if 308 < exponent then none
  else if 0 ≤ exponent then
    let y := x * powerOfTen exponent.toNat
    if y.isFinite then some y else none
  else if -308 ≤ exponent then some (x / powerOfTen (-exponent).toNat)
  else scale (x / powerOfTen 308) (exponent + 308)
  termination_by (-exponent).toNat

namespace Numeral

/-- The digits that count and the power of ten they are multiplied by.  An exponent that does not
fit into 64 bits is out of reach with or without its last digits. -/
def parts (n : Numeral) : Nat × Int :=
  let fraction := n.fraction.getD []
  let (kept, dropped) := keepDigits 0 n.whole
  let (kept, rest) := keepDigits kept fraction
  let exponent : Int := match n.exponent with
    | none => 0
    | some (down, digits) =>
      let size : Int := (keepDigits 0 digits).1
      if down then -size else size
  (kept, exponent + dropped.length + rest.length - fraction.length)

/-- The double that a number becomes, which has to be finite. -/
def toFloat (n : Numeral) : Except Fault Float :=
  let (kept, exponent) := n.parts
  match scale (Decimal.nearest ⟨kept, 0⟩) exponent with
  | some x => .ok (if n.negative then -x else x)
  | none => .error .outOfRange

/-- The number that is written.  There is no whole number `-0`. -/
def value (n : Numeral) : Except Fault Number :=
  let (size, dropped) := keepDigits 0 n.whole
  if n.fraction.isNone && n.exponent.isNone && dropped.isEmpty then
    if !n.negative then .ok (.natural size)
    else if 0 < size && size ≤ Nat.pow 2 63 then .ok (.negative (-size))
    else n.toFloat.map .double
  else n.toFloat.map .double

end Numeral

/-- What a number is called where something else is expected. -/
def Number.found : Number → Found
  | .natural n => .integer n
  | .negative n => .integer n
  | .double x => .double x

/-- A number as a double. -/
def Number.toFloat : Number → Float
  | .natural n => Decimal.nearest ⟨n, 0⟩
  | .negative n => -Decimal.nearest ⟨n.natAbs, 0⟩
  | .double x => x

end Json

end Cohesion
