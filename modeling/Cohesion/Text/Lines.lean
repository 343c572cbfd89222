/-!
# Bytes, lines and blanks

A text is written in UTF-8, and not all bytes are a text; a byte below 128 is a character by itself.  An
input of bytes has lines, each of which may be a text.  Blanks are the characters with the Unicode
property `White_Space`.
-/

namespace Cohesion

/-! ### Bytes -/

/-- The bytes of a text. -/
def bytesOf (s : String) : List UInt8 :=
  s.toList.flatMap String.utf8EncodeChar

/-- The text of some bytes if they are UTF-8. -/
def textOfBytes? (bytes : List UInt8) : Option String :=
  String.fromUTF8? ⟨bytes.toArray⟩

/-! ### Lines -/

/-- The lines of an input, each without the line break at its end. -/
def splitLines (input : List UInt8) : List (List UInt8) :=
  go input [] []
where
  /-- Adds lines to those of `done`, of which `line` is under way, both in reverse. -/
  go : List UInt8 → List UInt8 → List (List UInt8) → List (List UInt8)
  | [], [], done => done.reverse
  | [], line, done => (line.reverse :: done).reverse
  | byte :: rest, line, done =>
    if byte = 10 then go rest [] (line.reverse :: done) else go rest (byte :: line) done

/-- The text of a line, without a carriage return at its end, if it is UTF-8. -/
def lineText? (line : List UInt8) : Option String :=
  textOfBytes? (if line.getLast? = some 13 then line.dropLast else line)

/-! ### Blanks -/

/-- Whether a character has the Unicode property `White_Space`. -/
def isBlank (c : Char) : Bool :=
  let n := c.toNat
  (9 ≤ n && n ≤ 13) || n = 0x20 || n = 0x85 || n = 0xA0 || n = 0x1680
    || (0x2000 ≤ n && n ≤ 0x200A) || n = 0x2028 || n = 0x2029 || n = 0x202F || n = 0x205F
    || n = 0x3000

/-- A list without its leading and trailing blanks. -/
def trimChars (cs : List Char) : List Char :=
  ((cs.dropWhile isBlank).reverse.dropWhile isBlank).reverse

/-- A text without its leading and trailing blanks. -/
def trim (s : String) : String :=
  String.ofList (trimChars s.toList)

end Cohesion
