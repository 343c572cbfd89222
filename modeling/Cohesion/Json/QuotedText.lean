import Cohesion.Json.Fault
import Cohesion.Text.Reading

/-!
# Quoted texts in JSON

The bytes of a quoted text and its escapes.  Characters beyond `\uffff` are escaped as a pair of
surrogates; half a pair is no character.  `textUpToQuote` is the loop over a text, which takes escapes
in one of two ways: `readEscape` finds the character, and `skipEscape` only passes over it.
-/

namespace Cohesion

namespace Json

/-- The number that four hexadecimal digits write. -/
def readHex (bs : List UInt8) : Except Fault (Nat × Rest bs) :=
  match bs with
  | a :: b :: c :: d :: rest =>
    match hexNumber? [Char.ofUInt8 a, Char.ofUInt8 b, Char.ofUInt8 c, Char.ofUInt8 d] 0 with
    | some n => .ok (n, ⟨rest, Nat.le_add_right rest.length 4⟩)
    | none => .error .badEscape
  | _ => .error .endOfText

/-- The character that an escape of one letter stands for. -/
def escaped? (c : Char) : Option Char :=
  [('"', '"'), ('\\', '\\'), ('/', '/'), ('b', '\x08'), ('f', '\x0c'), ('n', '\n'), ('r', '\r'),
    ('t', '\t')].lookup c

/-- The second half of a surrogate pair, as an escape of its own. -/
def readSecondHalf (bs : List UInt8) : Except Fault (Nat × Rest bs) :=
  match bs with
  | [] => .error .endOfText
  | b :: rest =>
    if Char.ofUInt8 b ≠ '\\' then .error .brokenPair
    else
      match rest with
      | [] => .error .endOfText
      | b :: rest =>
        if Char.ofUInt8 b ≠ 'u' then .error .brokenPair
        else
          match readHex rest with
          | .error fault => .error fault
          | .ok (n, rest) =>
            if 0xDC00 ≤ n && n < 0xE000 then .ok (n, rest.behind.behind) else .error .halfPair

/-- The character that four hexadecimal digits stand for, perhaps with a second escape. -/
def readUnit (bs : List UInt8) : Except Fault (Char × Rest bs) :=
  match readHex bs with
  | .error fault => .error fault
  | .ok (n, rest) =>
    if 0xDC00 ≤ n && n < 0xE000 then .error .halfPair
    else if 0xD800 ≤ n && n < 0xDC00 then
      match readSecondHalf rest.1 with
      | .error fault => .error fault
      | .ok (m, inner) =>
        .ok (Char.ofNat (0x10000 + 1024 * (n - 0xD800) + (m - 0xDC00)), rest.within inner)
    else .ok (Char.ofNat n, rest)

/-- The bytes that an escape stands for, without the backslash in front. -/
def readEscape (bs : List UInt8) : Except Fault (List UInt8 × Rest bs) :=
  match bs with
  | [] => .error .endOfText
  | b :: rest =>
    if Char.ofUInt8 b = 'u' then
      match readUnit rest with
      | .error fault => .error fault
      | .ok (c, rest) => .ok (String.utf8EncodeChar c, rest.behind)
    else
      match escaped? (Char.ofUInt8 b) with
      | some c => .ok (String.utf8EncodeChar c, (Rest.whole rest).behind)
      | none => .error .badEscape

/-- Passes over an escape, whatever number it writes. -/
def skipEscape (bs : List UInt8) : Except Fault (List UInt8 × Rest bs) :=
  match bs with
  | [] => .error .endOfText
  | b :: rest =>
    if Char.ofUInt8 b = 'u' then
      match readHex rest with
      | .error fault => .error fault
      | .ok (_, rest) => .ok ([], rest.behind)
    else
      match escaped? (Char.ofUInt8 b) with
      | some _ => .ok ([], (Rest.whole rest).behind)
      | none => .error .badEscape

/-- The bytes up to a quotation mark, in front of those of `acc` in reverse. -/
def textUpToQuote (escape : (bs : List UInt8) → Except Fault (List UInt8 × Rest bs))
    (acc : List UInt8) (bs : List UInt8) : Except Fault (List UInt8 × List UInt8) :=
  match bs with
  | [] => .error .endOfText
  | b :: bs =>
    if Char.ofUInt8 b = '"' then .ok (acc.reverse, bs)
    else if Char.ofUInt8 b = '\\' then
      match escape bs with
      | .error fault => .error fault
      | .ok (bytes, ⟨rest, _⟩) => textUpToQuote escape (bytes.reverse ++ acc) rest
    else if b < 32 then .error .controlCharacter
    else textUpToQuote escape (b :: acc) bs
  termination_by bs.length

end Json

end Cohesion
