/-!
# Source texts

A `Source` is the bytes of a source file.  A slice of it is the text between two offsets, and the
line of an offset is the number of line breaks before it.
-/

namespace Cohesion.Java

/-- The bytes of a source file, and the number of line breaks before each of them. -/
structure Source where
  bytes : ByteArray
  lineOfByte : Array Nat

namespace Source

/-- The numbers of line breaks before each byte of a list, after the numbers in `lines`. -/
def countLines (lines : Array Nat) (line : Nat) : List UInt8 → Array Nat
  | [] => lines.push line
  | b :: bs => countLines (lines.push line) (if b = 10 then line + 1 else line) bs

/-- The source of some bytes. -/
def ofBytes (bytes : ByteArray) : Source :=
  ⟨bytes, countLines #[] 0 bytes.toList⟩

/-- The text from one offset up to another, empty if these bytes are no UTF-8 text. -/
def slice (s : Source) (start stop : Nat) : String :=
  (String.fromUTF8? (s.bytes.extract start stop)).getD ""

/-- The line of an offset, counted from zero. -/
def lineAt (s : Source) (offset : Nat) : Nat :=
  s.lineOfByte.getD offset 0

end Source

end Cohesion.Java
