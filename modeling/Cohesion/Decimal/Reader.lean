import Cohesion.Decimal

/-!
# Numbers that people write

A double may have a sign in front, digits on either side of a point, and an exponent.  Infinity and
what is no number have names, in either case of letters.  A count has digits only, and it may have a
plus sign in front.
-/

namespace Cohesion

namespace Decimal

/-- The names of the infinity. -/
def infinityNames : List String := ["inf", "infinity"]

/-- The value of a name. -/
def named? (cs : List Char) : Option Float :=
  let name := String.ofList (cs.map Char.toLower)
  if infinityNames.contains name then some (1.0 / 0.0)
  else if name = "nan" then some (0.0 / 0.0)
  else none

/-- The power of ten that an exponent names, together with the mark in front of it.  There may be no
exponent at all. -/
def exponent? : List Char → Option Int
  | [] => some 0
  | mark :: cs =>
    let (negative, digits) := splitSign cs
    if (mark = 'e' || mark = 'E') && !digits.isEmpty && digits.all Char.isDigit then
      let size : Int := ofDigits digits 0
      some (if negative then -size else size)
    else none

/-- The decimal that digits, a point and an exponent write. -/
def ofChars? (cs : List Char) : Option Decimal :=
  let whole := cs.takeWhile Char.isDigit
  let (fraction, rest) := match cs.dropWhile Char.isDigit with
    | '.' :: rest => (rest.takeWhile Char.isDigit, rest.dropWhile Char.isDigit)
    | rest => ([], rest)
  let digits := whole ++ fraction
  if digits.isEmpty then none
  else (exponent? rest).map fun shift => ⟨ofDigits digits 0, shift - fraction.length⟩

/-- The double nearest to the number that a text writes. -/
def readDouble? (s : String) : Option Float :=
  let (negative, cs) := splitSign s.toList
  let size := ((ofChars? cs).map nearest).orElse fun _ => named? cs
  size.map fun x => if negative then -x else x

/-- The count that a text writes, which has to fit into 64 bits. -/
def readCount? (s : String) : Option Nat :=
  let digits := match s.toList with
    | '+' :: cs => cs
    | cs => cs
  let n := ofDigits digits 0
  if !digits.isEmpty && digits.all Char.isDigit && n < Nat.pow 2 64 then some n else none

end Decimal

end Cohesion
