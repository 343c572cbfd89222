import Cohesion.Toml.QuotedText
import Cohesion.Toml.Scalar

/-!
# TOML documents

`Toml.document?` reads the members of a document, line by line: a line is blank, a header that starts
a table, or a key with its value.  A text with a line that is none of these is no document.
-/

namespace Cohesion

namespace Toml

/-- What follows the spaces and the comment at the end of a line. -/
def afterComment? (cs : List Char) : Option (List Char) :=
  match cs.dropWhile isSpace with
  | '#' :: cs =>
    match cs.dropWhile isPlain with
    | [] => some []
    | cs => (afterBreak? cs).map fun _ => cs
  | cs => some cs

/-- What follows the end of a line, which is a line break or the end of the text. -/
def afterLine? (cs : List Char) : Option (List Char) :=
  (afterComment? cs).bind fun
    | [] => some []
    | cs => afterBreak? cs

/-- What follows any number of spaces, comments and line breaks. -/
def afterGap? : (steps : Nat) → List Char → Option (List Char)
  | 0, _ => none
  | steps + 1, cs =>
    (afterComment? cs).bind fun cs =>
      match afterBreak? cs with
      | some cs => afterGap? steps cs
      | none => some cs

/-- What follows any number of spaces, comments and line breaks. -/
def gap? (cs : List Char) : Option (List Char) :=
  afterGap? (cs.length + 1) cs

/-! ### Keys -/

/-- Whether a character may stand in a key without quotation marks. -/
def isKeyChar (c : Char) : Bool :=
  c.isAlphanum || c = '_' || c = '-'

/-- A key without dots, and what follows it. -/
def simpleKey? (cs : List Char) : Option (String × List Char) :=
  match cs with
  | c :: rest =>
    if c = '"' || c = '\'' then
      if rest.take 2 = [c, c] then none else quoted? cs
    else if isKeyChar c then
      some (String.ofList (cs.takeWhile isKeyChar), cs.dropWhile isKeyChar)
    else none
  | [] => none

/-- The depth to which values may be nested, and the number of parts that a key may have. -/
def maxDepth : Nat := 80

/-- A key of at most so many parts with dots between them: all parts but the last, the last part, and
what follows it. -/
def keyOf? : (parts : Nat) → List Char → Option (List String × String × List Char)
  | 0, _ => none
  | parts + 1, cs =>
    (simpleKey? (cs.dropWhile isSpace)).bind fun (name, cs) =>
      match cs.dropWhile isSpace with
      | '.' :: cs => (keyOf? parts cs).map fun (path, last, cs) => (name :: path, last, cs)
      | cs => some ([], name, cs)

/-- A key: all parts but the last, the last part, and what follows it. -/
def key? (cs : List Char) : Option (List String × String × List Char) :=
  keyOf? maxDepth cs

/-! ### Values -/

/-- What reads a value off the front of some characters. -/
abbrev ValueReader := List Char → Option (Value × List Char)

/-- The items of a list whose opening bracket is taken, after those of `acc` in reverse. -/
def items? (value : ValueReader) : (steps : Nat) → List Value → ValueReader
  | 0, _, _ => none
  | steps + 1, acc, cs =>
    (gap? cs).bind fun
      | ']' :: cs => some (.list acc.reverse, cs)
      | cs => do
        let (item, cs) ← value cs
        match ← gap? cs with
        | ',' :: cs => items? value steps (item :: acc) cs
        | ']' :: cs => some (.list (item :: acc).reverse, cs)
        | _ => none

/-- A key and its value, added to a table.  The equals sign may stand on a line of its own. -/
def member? (value : ValueReader) (ms : Members) (cs : List Char) :
    Option (Members × List Char) := do
  let (path, last, cs) ← key? cs
  match ← gap? cs with
  | '=' :: cs =>
    let (v, cs) ← value (← gap? cs)
    return (← ms.addDotted last v path, cs)
  | _ => none

/-- The members of a table whose opening brace is taken, after those of `ms`. -/
def members? (value : ValueReader) : (steps : Nat) → Members → ValueReader
  | 0, _, _ => none
  | steps + 1, ms, cs =>
    (gap? cs).bind fun
      | '\x7d' :: cs => some (.table .closed ms, cs)
      | cs => do
        let (ms, cs) ← member? value ms cs
        match ← gap? cs with
        | ',' :: cs => members? value steps ms cs
        | '\x7d' :: cs => some (.table .closed ms, cs)
        | _ => none

/-- Whether a character can stand in a value without quotation marks or brackets. -/
def isScalarChar (c : Char) : Bool :=
  isPlain c && !isSpace c && !"#,=[]\x7b\x7d\"'".toList.contains c

/-- A scalar.  A date may have a blank between it and the time. -/
def scalarAt? (cs : List Char) : Option (Value × List Char) :=
  let front := cs.takeWhile isScalarChar
  let rest := cs.dropWhile isScalarChar
  let (front, rest) := match rest with
    | ' ' :: c :: more =>
      if afterDate? front = some [] && c.isDigit then
        (front ++ ' ' :: (c :: more).takeWhile isScalarChar, (c :: more).dropWhile isScalarChar)
      else (front, rest)
    | rest => (front, rest)
  (scalar? front).map (·, rest)

/-- A text or a scalar. -/
def simpleValue? (cs : List Char) : Option (Value × List Char) :=
  match cs with
  | [] => none
  | c :: _ =>
    if c = '"' || c = '\'' then (quoted? cs).map fun (s, cs) => (.text s, cs) else scalarAt? cs

/-- A value, in which lists and tables are nested at most so deep. -/
def value? : (depth : Nat) → ValueReader
  | 0, cs => simpleValue? cs
  | depth + 1, cs =>
    match cs with
    | '[' :: rest => items? (value? depth) (cs.length + 1) [] rest
    | '\x7b' :: rest => members? (value? depth) (cs.length + 1) [] rest
    | cs => simpleValue? cs

/-! ### Lines -/

/-- The members that are read so far, and the keys on the way to the table under way. -/
structure Draft where
  members : Members
  path : List String

/-- A header whose opening bracket is taken, and what follows it. -/
def header? (d : Draft) (cs : List Char) : Option (Draft × List Char) := do
  let (isElement, cs) : Bool × List Char := match cs with
    | '[' :: cs => (true, cs)
    | cs => (false, cs)
  let (path, last, cs) ← key? cs
  let start := if isElement then Members.startElement last else Members.startTable last
  let members ← d.members.changeAt start path
  match isElement, cs with
  | true, ']' :: ']' :: cs => some (⟨members, path ++ [last]⟩, cs)
  | false, ']' :: cs => some (⟨members, path ++ [last]⟩, cs)
  | _, _ => none

/-- A header, a key with its value, or nothing, and what follows it on the line. -/
def content? (d : Draft) (cs : List Char) : Option (Draft × List Char) :=
  match cs.dropWhile isSpace with
  | '[' :: cs => header? d cs
  | cs =>
    if (afterLine? cs).isSome then some (d, cs)
    else do
      let (path, last, cs) ← key? cs
      match cs with
      | '=' :: cs =>
        let (v, cs) ← value? maxDepth (cs.dropWhile isSpace)
        return (⟨← d.members.changeAt (Members.addDotted last v path) d.path, d.path⟩, cs)
      | _ => none

/-- All lines of a document. -/
def lines? : (steps : Nat) → Draft → List Char → Option Members
  | 0, _, _ => none
  | steps + 1, d, cs => do
    let (d, cs) ← content? d cs
    match cs.dropWhile isSpace with
    | [] => some d.members
    | _ => lines? steps d (← afterLine? cs)

/-- The members of a document.  A byte order mark in front of it does not count. -/
def document? (s : String) : Option Members :=
  let cs := match s.toList with
    | '\ufeff' :: cs => cs
    | cs => cs
  lines? (cs.length + 1) ⟨[], []⟩ cs

end Toml

end Cohesion
