import Cohesion.Decimal
import Cohesion.Text.Reading
import Cohesion.Toml.Value

/-!
# TOML scalars

The values that are written without quotation marks or brackets: truth values, whole numbers in four
bases, decimal numbers, dates and times.  A single underscore may stand between two digits.
-/

namespace Cohesion

namespace Toml

/-- Whether characters are digits, of which each two may have an underscore between them. -/
def isDigits (isDigit : Char → Bool) : List Char → Bool
  | [] => false
  | [c] => isDigit c
  | c :: '_' :: rest => isDigit c && isDigits isDigit rest
  | c :: rest => isDigit c && isDigits isDigit rest

/-- Whether characters are a whole number without a sign and without leading zeros. -/
def isWhole (cs : List Char) : Bool :=
  cs = ['0'] || (cs.head? ≠ some '0' && isDigits Char.isDigit cs)

/-- The digits without the underscores between them. -/
def bare (cs : List Char) : List Char :=
  cs.filter (· ≠ '_')

/-- A whole number in the base of its prefix. -/
def integerOf? (cs : List Char) : Option Int :=
  let based (base : Nat) (digits : List Char) : Option Int :=
    if isDigits (fun c => (hexValue? c).any (· < base)) digits then
      some ((bare digits).foldl (fun n c => base * n + (hexValue? c).getD 0) 0 : Nat)
    else none
  match cs with
  | '0' :: 'x' :: digits => based 16 digits
  | '0' :: 'o' :: digits => based 8 digits
  | '0' :: 'b' :: digits => based 2 digits
  | cs =>
    let (negative, digits) := Decimal.splitSign cs
    if isWhole digits then
      let size : Int := Decimal.ofDigits (bare digits) 0
      some (if negative then -size else size)
    else none

/-- Whether a whole number is small enough to be read at all. -/
def inReach (n : Int) : Bool :=
  -(Int.pow 2 127) ≤ n && n < Int.pow 2 128

/-- A decimal number with a fraction or an exponent, which must not be too large for a double. -/
def floatOf? (cs : List Char) : Option Float :=
  let (negative, body) := Decimal.splitSign cs
  let isMark (c : Char) : Bool := c = 'e' || c = 'E'
  let mantissa := body.takeWhile (!isMark ·)
  let power := body.dropWhile (!isMark ·)
  let whole := mantissa.takeWhile (· ≠ '.')
  let fraction := mantissa.dropWhile (· ≠ '.')
  let (down, exponent) := Decimal.splitSign (power.drop 1)
  if isWhole whole && (fraction.isEmpty || isDigits Char.isDigit (fraction.drop 1))
      && (power.isEmpty || isDigits Char.isDigit exponent)
      && !(fraction.isEmpty && power.isEmpty) then
    let places := bare (fraction.drop 1)
    let digits := Decimal.ofDigits (bare whole ++ places) 0
    let shift : Int := Decimal.ofDigits (bare exponent) 0
    let x := Decimal.nearest ⟨digits, (if down then -shift else shift) - places.length⟩
    if x.isFinite then some (if negative then -x else x) else none
  else none

/-- An infinity, or what is no number. -/
def specialOf? (cs : List Char) : Option Float :=
  let (negative, body) := Decimal.splitSign cs
  if body = "inf".toList then some (if negative then -1.0 / 0.0 else 1.0 / 0.0)
  else if body = "nan".toList then some (0.0 / 0.0)
  else none

/-! ### Dates and times -/

/-- The number that so many digits write, and what follows them. -/
def number? (digits : Nat) (cs : List Char) : Option (Nat × List Char) :=
  let front := cs.take digits
  if front.length = digits && front.all Char.isDigit then
    some (Decimal.ofDigits front 0, cs.drop digits)
  else none

/-- What follows a character. -/
def after? (c : Char) : List Char → Option (List Char)
  | [] => none
  | d :: cs => if c = d then some cs else none

/-- The number of days of a month. -/
def daysIn (year month : Nat) : Nat :=
  if month = 2 then
    if year % 4 = 0 && (year % 100 ≠ 0 || year % 400 = 0) then 29 else 28
  else if [4, 6, 9, 11].contains month then 30
  else 31

/-- What follows a date. -/
def afterDate? (cs : List Char) : Option (List Char) := do
  let (year, cs) ← number? 4 cs
  let (month, cs) ← number? 2 (← after? '-' cs)
  let (day, cs) ← number? 2 (← after? '-' cs)
  if 1 ≤ month && month ≤ 12 && 1 ≤ day && day ≤ daysIn year month then some cs else none

/-- What follows hours and minutes. -/
def afterMinutes? (cs : List Char) : Option (List Char) := do
  let (hour, cs) ← number? 2 cs
  let (minute, cs) ← number? 2 (← after? ':' cs)
  if hour ≤ 23 && minute ≤ 59 then some cs else none

/-- What follows a time, which may go without seconds. -/
def afterTime? (cs : List Char) : Option (List Char) := do
  let cs ← afterMinutes? cs
  match cs with
  | ':' :: cs =>
    let (second, cs) ← number? 2 cs
    if 60 < second then none
    else
      match cs with
      | '.' :: cs =>
        if (cs.takeWhile Char.isDigit).isEmpty then none else some (cs.dropWhile Char.isDigit)
      | cs => some cs
  | cs => some cs

/-- Whether characters are the offset of a time from universal time, or nothing. -/
def isOffset : List Char → Bool
  | [] | ['Z'] | ['z'] => true
  | '+' :: cs | '-' :: cs => afterMinutes? cs = some []
  | _ => false

/-- Whether characters are a date, a time or both. -/
def isMoment (cs : List Char) : Bool :=
  match afterDate? cs with
  | some [] => true
  | some (mark :: time) =>
    (mark = 'T' || mark = 't' || mark = ' ') && (afterTime? time).any isOffset
  | none => afterTime? cs = some []

/-- The value of a scalar. -/
def scalar? (cs : List Char) : Option Value :=
  if cs = "true".toList then some (.boolean true)
  else if cs = "false".toList then some (.boolean false)
  else
    match integerOf? cs with
    | some n => if inReach n then some (.integer n) else none
    | none =>
      match (floatOf? cs).orElse fun _ => specialOf? cs with
      | some x => some (.float x)
      | none => if isMoment cs then some .moment else none

end Toml

end Cohesion
