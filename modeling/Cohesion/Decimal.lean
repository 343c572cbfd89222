/-!
# Decimals

A `Decimal` is a natural number times a power of ten.  `Decimal.nearest` is the double nearest to
one, and `Decimal.ofDigits` the number that a list of digits writes.
-/

namespace Cohesion

/-- The number `digits * 10 ^ exponent`. -/
structure Decimal where
  digits : Nat
  exponent : Int
  deriving DecidableEq

namespace Decimal

/-- The value of a decimal digit, and zero for any other character. -/
def digitValue (c : Char) : Nat :=
  if c.isDigit then c.toNat - '0'.toNat else 0

/-- The number that a list of digits writes, after the digits of `acc`. -/
def ofDigits (cs : List Char) (acc : Nat) : Nat :=
  cs.foldl (fun n c => 10 * n + digitValue c) acc

/-- The sign in front of a number, true for a minus, and what follows it. -/
def splitSign : List Char → Bool × List Char
  | '+' :: cs => (false, cs)
  | '-' :: cs => (true, cs)
  | cs => (false, cs)

/-- The number of digits of a number, one for zero. -/
def length (n : Nat) : Nat :=
  (Nat.toDigits 10 n).length

/-- The double nearest to a decimal, on a tie the one with an even significand.  Below `10 ^ (-330)`
everything is nearest to zero, and from `10 ^ 310` on to infinity. -/
def nearest (d : Decimal) : Float :=
  let magnitude := d.exponent + length d.digits
  if d.digits = 0 || magnitude < -330 then 0.0
  else if 310 < magnitude then 1.0 / 0.0
  else if d.exponent < 0 then Float.ofScientific d.digits true d.exponent.natAbs
  else Float.ofScientific d.digits false d.exponent.natAbs

end Decimal

end Cohesion
