import Cohesion.Decimal

/-!
# The shortest decimal of a double

A positive double is `m * 2 ^ q`.  The reals that are nearer to it than to any other double form an
interval, whose ends belong to it exactly if `m` is even.  `Binary.shortest` goes through the grids
of multiples of a power of ten from coarse to fine and takes the first grid that has a point in the
interval, which then has the fewest digits; of the two neighbours of the double on that grid it
takes the nearer one, and the even one on a tie.  All numbers are exact.
-/

namespace Cohesion

/-- The positive number `significand * 2 ^ exponent`.  The number below it is nearer than the number
above it if `narrowBelow` holds. -/
structure Binary where
  significand : Nat
  exponent : Int
  narrowBelow : Bool
  deriving DecidableEq

namespace Binary

/-- A quarter of the last binary place, as a numerator over the grid of step `10 ^ p`. -/
def quarter (b : Binary) (p : Int) : Nat :=
  Nat.pow 2 (b.exponent - 2).toNat * Nat.pow 10 (-p).toNat

/-- The denominator over the grid of step `10 ^ p`. -/
def denominator (b : Binary) (p : Int) : Nat :=
  Nat.pow 2 (2 - b.exponent).toNat * Nat.pow 10 p.toNat

/-- The number itself on the grid, times the denominator. -/
def scaled (b : Binary) (p : Int) : Nat :=
  4 * b.significand * b.quarter p

/-- Whether the point `c` of the grid of step `10 ^ p` is read back as the number. -/
def admits (b : Binary) (p : Int) (c : Nat) : Bool :=
  let x := c * b.denominator p
  let low := (4 * b.significand - if b.narrowBelow then 1 else 2) * b.quarter p
  let high := (4 * b.significand + 2) * b.quarter p
  if b.significand % 2 = 0 then decide (low ≤ x ∧ x ≤ high) else decide (low < x ∧ x < high)

/-- The nearer of the two neighbours on a grid that are read back as the number. -/
def onGrid? (b : Binary) (p : Int) : Option Nat :=
  let below := b.scaled p / b.denominator p
  let above := below + 1
  match b.admits p below, b.admits p above with
  | false, false => none
  | true, false => some below
  | false, true => some above
  | true, true =>
    let down := b.scaled p - below * b.denominator p
    let up := above * b.denominator p - b.scaled p
    if down < up then some below
    else if up < down then some above
    else if below % 2 = 0 then some below else some above

/-- The first of so many grids, each ten times finer than the one before, with an answer. -/
def search (b : Binary) : Nat → Int → Decimal
  | 0, p => ⟨b.scaled p / b.denominator p, p⟩
  | grids + 1, p =>
    match b.onGrid? p with
    | some c => ⟨c, p⟩
    | none => b.search grids (p - 1)

/-- A power of ten above the number, up to a few places. -/
def magnitude (b : Binary) : Int :=
  ((b.exponent + b.significand.log2 + 1) * 30103).fdiv 100000 + 2

/-- The decimal of fewest digits that is read back as the number, and the nearest of those. -/
def shortest (b : Binary) : Decimal :=
  b.search 24 b.magnitude

end Binary

/-- What a double stands for, apart from its sign. -/
inductive Magnitude where
  | notANumber
  | infinite
  | zero
  | positive (value : Binary)
  deriving DecidableEq

/-- The sign bit of a double. -/
def Magnitude.signed (x : Float) : Bool :=
  x.toBits ≥ 0x8000000000000000

/-- The magnitude of a double. -/
def Magnitude.ofFloat (x : Float) : Magnitude :=
  let bits := x.toBits.toNat
  let fraction : Nat := bits % Nat.pow 2 52
  let biased : Nat := bits / Nat.pow 2 52 % Nat.pow 2 11
  if biased = 2047 then (if fraction = 0 then .infinite else .notANumber)
  else if biased = 0 then
    (if fraction = 0 then .zero else .positive ⟨fraction, -1074, false⟩)
  else .positive ⟨Nat.pow 2 52 + fraction, (biased : Int) - 1075, fraction = 0 && 1 < biased⟩

end Cohesion
