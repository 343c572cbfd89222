import Cohesion.Decimal.Shortest

/-!
# The text of a double

A double is written with its shortest decimal.  A `NumberStyle` holds the decisions that remain:
which exponents are written without one, what follows a whole number, and the words for what is no
finite number.
-/

namespace Cohesion

/-- How a double is written. -/
structure NumberStyle where
  /-- The decimal exponents, from the least to the greatest, that are written without one; all if
  there are no bounds. -/
  plainExponents : Option (Int × Int)
  /-- What follows a number without a fraction. -/
  whole : String
  notANumber : String
  infinity : String
  minusInfinity : String

namespace NumberStyle

/-- So many zeros. -/
def zeros (n : Nat) : String :=
  String.ofList (List.replicate n '0')

/-- The digits with the point at its place. -/
def plain (style : NumberStyle) (digits : List Char) (exponent : Int) : String :=
  let point := exponent + digits.length
  if 0 ≤ exponent then String.ofList digits ++ zeros exponent.toNat ++ style.whole
  else if 0 < point then
    String.ofList (digits.take point.toNat) ++ "." ++ String.ofList (digits.drop point.toNat)
  else "0." ++ zeros (-point).toNat ++ String.ofList digits

/-- The first digit, the other digits after a point, and a signed exponent. -/
def scientific (digits : List Char) (exponent : Int) : String :=
  let fraction := digits.drop 1
  String.ofList (digits.take 1)
    ++ (if fraction.isEmpty then "" else "." ++ String.ofList fraction)
    ++ (if exponent < 0 then "e-" else "e+") ++ toString exponent.natAbs

/-- A decimal without superfluous zeros. -/
def decimal (style : NumberStyle) (d : Decimal) : String :=
  let digits := Nat.toDigits 10 d.digits
  let leading := d.exponent + digits.length - 1
  match style.plainExponents with
  | none => style.plain digits d.exponent
  | some (least, greatest) =>
    if least ≤ leading ∧ leading ≤ greatest then style.plain digits d.exponent
    else scientific digits leading

/-- A double in a style. -/
def text (style : NumberStyle) (x : Float) : String :=
  let sign := if Magnitude.signed x then "-" else ""
  match Magnitude.ofFloat x with
  | .notANumber => style.notANumber
  | .infinite => if Magnitude.signed x then style.minusInfinity else style.infinity
  | .zero => sign ++ "0" ++ style.whole
  | .positive b => sign ++ style.decimal b.shortest

end NumberStyle

/-- Messages never use an exponent and leave whole numbers without a point. -/
def NumberStyle.message : NumberStyle where
  plainExponents := none
  whole := ""
  notANumber := "NaN"
  infinity := "inf"
  minusInfinity := "-inf"

end Cohesion
