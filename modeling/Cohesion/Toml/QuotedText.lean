import Cohesion.Text.Reading

/-!
# Quoted texts in TOML

A text stands between double quotation marks, with escapes, or between single ones, without.  Three
marks on each side make a text of many lines; a line break right behind the first three does not
belong to it, any other one belongs to it as it is written, and a backslash at the end of a line joins
the line to the next one.
-/

namespace Cohesion

namespace Toml

/-- Whether a character may stand in a text or a comment.  A tab may, other control characters may
not. -/
def isPlain (c : Char) : Bool :=
  c = '\t' || (' ' ≤ c && c ≠ '\x7f')

/-- Whether a character separates parts of a line. -/
def isSpace (c : Char) : Bool :=
  c = ' ' || c = '\t'

/-- A line break, with or without a carriage return, and what follows it. -/
def lineBreak? : List Char → Option (List Char × List Char)
  | '\n' :: cs => some (['\n'], cs)
  | '\r' :: '\n' :: cs => some (['\r', '\n'], cs)
  | _ => none

/-- What follows a line break. -/
def afterBreak? (cs : List Char) : Option (List Char) :=
  (lineBreak? cs).map (·.2)

/-- The character that so many hexadecimal digits write, and what follows them. -/
def codePoint? (digits : Nat) (cs : List Char) : Option (Char × List Char) :=
  match hexNumber? (cs.take digits) 0 with
  | none => none
  | some n =>
    if (cs.take digits).length = digits && n.isValidChar then some (Char.ofNat n, cs.drop digits)
    else none

/-- The character of an escape whose backslash is taken, and what follows it. -/
def escaped? : List Char → Option (Char × List Char)
  | 'x' :: cs => codePoint? 2 cs
  | 'u' :: cs => codePoint? 4 cs
  | 'U' :: cs => codePoint? 8 cs
  | c :: cs =>
    ([('b', '\x08'), ('t', '\t'), ('n', '\n'), ('f', '\x0c'), ('r', '\r'), ('e', '\x1b'),
      ('"', '"'), ('\\', '\\')].lookup c).map (·, cs)
  | [] => none

/-- What follows the blanks and line breaks behind a backslash at the end of a line.  The flag tells
whether a line break was among them. -/
def afterJoin? (hasBreak : Bool) : List Char → Option (List Char)
  | '\n' :: cs => afterJoin? true cs
  | '\r' :: '\n' :: cs => afterJoin? true cs
  | c :: cs =>
    if isSpace c then afterJoin? hasBreak cs else if hasBreak then some (c :: cs) else none
  | [] => if hasBreak then some [] else none

/-- Two marks more, which belong to the text when three marks that end it follow them. -/
def extraMarks (mark : Char) : List Char → List Char × List Char
  | a :: b :: cs =>
    if a = mark && b = mark then ([mark, mark], cs)
    else if a = mark then ([mark], b :: cs)
    else ([], a :: b :: cs)
  | [a] => if a = mark then ([mark], []) else ([], [a])
  | [] => ([], [])

/-- The text up to the marks that end it, after the characters of `acc` in reverse.  Each step takes
something off the text, so that `steps` need not be more than its length. -/
def textUpTo (mark : Char) (long : Bool) : (steps : Nat) → (acc cs : List Char) →
    Option (String × List Char)
  | 0, _, _ => none
  | steps + 1, acc, cs =>
    match cs with
    | [] => none
    | c :: rest =>
      if c = mark then
        if !long then some (String.ofList acc.reverse, rest)
        else
          match rest with
          | a :: b :: rest =>
            if a = mark && b = mark then
              let (extra, rest) := extraMarks mark rest
              some (String.ofList (acc.reverse ++ extra), rest)
            else textUpTo mark long steps (c :: acc) (a :: b :: rest)
          | rest => textUpTo mark long steps (c :: acc) rest
      else if c = '\\' && mark = '"' then
        match escaped? rest with
        | some (d, rest) => textUpTo mark long steps (d :: acc) rest
        | none =>
          if long then (afterJoin? false rest).bind (textUpTo mark long steps acc) else none
      else if isPlain c then textUpTo mark long steps (c :: acc) rest
      else if long then
        (lineBreak? cs).bind fun (broken, rest) =>
          textUpTo mark long steps (broken.reverse ++ acc) rest
      else none

/-- The text at the front of some characters, and what follows it. -/
def quoted? (cs : List Char) : Option (String × List Char) :=
  match cs with
  | a :: b :: c :: rest =>
    if (a = '"' || a = '\'') && b = a && c = a then
      textUpTo a true cs.length [] ((afterBreak? rest).getD rest)
    else if a = '"' || a = '\'' then textUpTo a false cs.length [] (b :: c :: rest)
    else none
  | a :: rest => if a = '"' || a = '\'' then textUpTo a false cs.length [] rest else none
  | [] => none

end Toml

end Cohesion
