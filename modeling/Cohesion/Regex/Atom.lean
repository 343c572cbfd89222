import Cohesion.Regex.Mode
import Cohesion.Text.Reading

/-!
# Atoms of a regular expression

An atom is a character, a class of characters with a name of its own, or a place in the text.  Most of
them are written with a backslash.  An expression holds no closing brace, since that ends the field of
which the expression is the value; so everything that needs one is refused at its opening brace.
-/

namespace Cohesion

namespace Regex

/-- The smallest part of an expression. -/
inductive Atom where
  /-- A character, which may be written as the number of a byte. -/
  | char (c : Char) (asByte : Bool)
  /-- Any character. -/
  | any
  /-- Digits, blanks or letters, or all characters but these. -/
  | kind (negated : Bool)
  /-- The characters of a general category, or all but these. -/
  | category (negated : Bool)
  /-- A place in the text, which may be the edge of a word. -/
  | place (ofWord : Bool)

/-- The characters that stand for more than themselves. -/
def isMeta (c : Char) : Bool :=
  "\\.+*?()|[]\x7b\x7d^$#&-~".toList.contains c

/-- Whether a backslash takes a character for itself, as it does with all that is no letter or digit
and no angle bracket. -/
def isEscapable (c : Char) : Bool :=
  isMeta c || c.toNat < 128 && !c.isAlphanum && c ≠ '<' && c ≠ '>'

/-- The number that so many hexadecimal digits write, after those of `acc`. -/
def readHex (m : Mode) : (digits acc : Nat) → (cs : List Char) → Option (Nat × Rest cs)
  | 0, acc, cs => some (acc, m.skip cs)
  | digits + 1, acc, cs =>
    match m.skip cs with
    | ⟨[], _⟩ => none
    | ⟨c :: rest, h⟩ =>
      match hexValue? c with
      | none => none
      | some n =>
        (readHex m digits (16 * acc + n) rest).map fun (n, inner) =>
          (n, Rest.within ⟨c :: rest, h⟩ inner.behind)

/-- A character that is written as a number of so many digits. -/
def readNumber (m : Mode) (digits : Nat) (cs : List Char) : Option (Atom × Rest cs) :=
  match readHex m digits 0 cs with
  | none => none
  | some (n, rest) =>
    if n.isValidChar then some (.char (Char.ofNat n) (digits = 2), rest) else none

/-- The letters of the general categories. -/
def isCategory (c : Char) : Bool :=
  ['c', 'l', 'm', 'n', 'p', 's', 'z'].contains c.toLower

/-- A general category. -/
def readCategory (m : Mode) (negated : Bool) (cs : List Char) : Option (Atom × Rest cs) :=
  match m.skip cs with
  | ⟨[], _⟩ => none
  | ⟨c :: rest, h⟩ =>
    if isCategory c then
      some (.category negated, Rest.within ⟨c :: rest, h⟩ (m.skip rest).behind)
    else none

/-- The atom of a single letter behind a backslash. -/
def ofLetter? (c : Char) : Option Atom :=
  if ['d', 's', 'w'].contains c then some (.kind false)
  else if ['D', 'S', 'W'].contains c then some (.kind true)
  else if ['A', 'z'].contains c then some (.place false)
  else if ['b', 'B', '<', '>'].contains c then some (.place true)
  else
    ([('a', '\x07'), ('f', '\x0c'), ('n', '\n'), ('r', '\r'), ('t', '\t'), ('v', '\x0b')].lookup
      c).map (.char · false)

/-- The atom of an escape whose backslash is taken. -/
def readEscape (m : Mode) (cs : List Char) : Option (Atom × Rest cs) :=
  match cs with
  | [] => none
  | c :: rest =>
    let read : Option (Atom × Rest rest) :=
      if c = 'x' then readNumber m 2 rest
      else if c = 'u' then readNumber m 4 rest
      else if c = 'U' then readNumber m 8 rest
      else if c = 'p' || c = 'P' then readCategory m (c = 'P') rest
      else if isEscapable c then some (.char c false, .whole rest)
      else if c = 'b' && rest.head? = some '\x7b' then none
      else (ofLetter? c).map (·, .whole rest)
    read.map fun (atom, rest) => (atom, rest.behind)

namespace Atom

/-- Whether an atom makes sense in a mode.  What matches bytes has to match texts only, so that none
of it may go beyond the first 128 characters. -/
def isSound (m : Mode) (atom : Atom) : Bool :=
  m.unicode || match atom with
    | .char c asByte => !asByte || c.toNat < 128
    | .any => false
    | .kind negated => !negated
    | .category _ => false
    | .place _ => true

/-- Whether an atom makes sense as an item of a class. -/
def isSoundItem (m : Mode) (atom : Atom) : Bool :=
  match atom with
  | .char c _ => m.unicode || c.toNat < 128
  | .place _ => false
  | atom => atom.isSound m

/-- Whether an atom is the edge of a word. -/
def isWordEdge : Atom → Bool
  | .place ofWord => ofWord
  | _ => false

end Atom

end Regex

end Cohesion
