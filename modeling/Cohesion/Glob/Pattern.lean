import Cohesion.Glob
import Cohesion.Text.Reading

/-!
# The text of a glob

In the text of a glob `?` stands for a byte and `*` for any bytes of one name; `**` between slashes
stands for any names.  Characters in brackets are a choice of bytes, texts in braces with commas
between them a choice of globs, and a backslash takes the character after it for itself.
-/

namespace Cohesion

/-- Why a text is no glob. -/
inductive GlobFault where
  | unclosedBracket
  | badRange (low high : Char)
  | unopenedBrace
  | unclosedBrace
  | danglingEscape
  deriving DecidableEq

/-- A fault in words. -/
def GlobFault.message : GlobFault → String
  | .unclosedBracket => "unclosed character class; missing ']'"
  | .badRange low high =>
    "invalid range; '" ++ String.singleton low ++ "' > '" ++ String.singleton high ++ "'"
  | .unopenedBrace =>
    "unopened alternate group; missing '\x7b' (maybe escape '\x7d' with '[\x7d]'?)"
  | .unclosedBrace =>
    "unclosed alternate group; missing '\x7d' (maybe escape '\x7b' with '[\x7b]'?)"
  | .danglingEscape => "dangling '\\'"

namespace Glob

/-- The ranges of bytes that a range of characters stands for: a character stands for each of its
bytes, and a range joins the last byte of the one to the first byte of the other. -/
def byteRanges (low high : Char) : List (UInt8 × UInt8) :=
  let single := fun b : UInt8 => (b, b)
  let lows := String.utf8EncodeChar low
  let highs := String.utf8EncodeChar high
  if low = high then lows.map single
  else
    lows.dropLast.map single ++ (lows.getLastD 0, highs.headD 0) :: (highs.drop 1).map single

/-- The ranges of characters up to a closing bracket, after those of `ranges` in reverse, and nothing
if the bracket is not closed.  The flags tell whether a first character is still to come, and whether
the last one is followed by a hyphen. -/
def readRanges (isFirst inRange : Bool) (ranges : List (Char × Char)) (cs : List Char) :
    Except GlobFault (Option (List (Char × Char) × Rest cs)) :=
  match cs with
  | [] => .ok none
  | c :: rest =>
    if c = ']' && !isFirst then
      .ok (some ((if inRange then ('-', '-') :: ranges else ranges).reverse, ⟨rest, by simp⟩))
    else
      let more : Except GlobFault (Option (List (Char × Char) × Rest rest)) :=
        if c = '-' && !isFirst && !inRange then readRanges false true ranges rest
        else
          match inRange, ranges with
          | true, (low, _) :: ranges =>
            if c < low then .error (.badRange low c)
            else readRanges false false ((low, c) :: ranges) rest
          | _, ranges => readRanges false false ((c, c) :: ranges) rest
      match more with
      | .error fault => .error fault
      | .ok none => .ok none
      | .ok (some (ranges, ⟨rest, _⟩)) => .ok (some (ranges, ⟨rest, by grind⟩))

/-- A choice of bytes, whose opening bracket is taken. -/
def readClass (cs : List Char) : Except GlobFault (Option (GlobPart × Rest cs)) :=
  let part (outside : Bool) (ranges : List (Char × Char)) : GlobPart :=
    .oneOf outside (ranges.flatMap fun (low, high) => byteRanges low high)
  match cs with
  | '!' :: rest | '^' :: rest =>
    match readRanges true false [] rest with
    | .error fault => .error fault
    | .ok none => .ok none
    | .ok (some (ranges, ⟨rest, _⟩)) => .ok (some (part true ranges, ⟨rest, by grind⟩))
  | cs =>
    match readRanges true false [] cs with
    | .error fault => .error fault
    | .ok none => .ok none
    | .ok (some (ranges, rest)) => .ok (some (part false ranges, rest))

/-- What is read of a glob so far. -/
structure Draft where
  /-- For each open brace, from the inside out, the branches that are finished and the parts in front
  of the brace, both in reverse. -/
  outer : List (List Glob × Glob)
  /-- The parts of the branch under way, in reverse. -/
  parts : Glob
  previous : Option Char
  /-- Whether brackets stand for themselves, because one of them is not closed. -/
  plainBrackets : Bool

namespace Draft

/-- The draft with another part, which ends with the character `c`. -/
def push (d : Draft) (part : GlobPart) (c : Char) : Draft :=
  { d with parts := part :: d.parts, previous := some c }

/-- The draft after two asterisks that stand for the bytes of one name. -/
def pushNames (d : Draft) : Draft :=
  (d.push .anyName '*').push .anyName '*'

/-- The draft after two asterisks that stand for any names below the slash before them. -/
def pushBelow (d : Draft) (isLast : Bool) (c : Char) : Draft :=
  let part := if isLast then GlobPart.anyInside else .anyBetween
  let parts := match d.parts with
    | .anyParents :: parts => .anyParents :: parts
    | .anyInside :: parts => .anyInside :: parts
    | _ :: parts => part :: parts
    | [] => [part]
  { d with parts, previous := some c }

/-- The draft after two asterisks, and what is left of the text behind them. -/
def afterStars (d : Draft) (cs : List Char) : Draft × Rest cs :=
  if d.parts.isEmpty then
    match cs with
    | [] => (d.push .anyParents '*', .whole [])
    | '/' :: rest => (d.push .anyParents '/', ⟨rest, by simp⟩)
    | cs => (d.pushNames, .whole cs)
  else if d.previous ≠ some '/'
      && (d.outer.isEmpty || d.previous ≠ some ',' && d.previous ≠ some '\x7b') then
    (d.pushNames, .whole cs)
  else
    match cs with
    | [] => (d.pushBelow true '*', .whole [])
    | '/' :: rest => (d.pushBelow false '/', ⟨rest, by simp⟩)
    | c :: rest =>
      if (c = ',' || c = '\x7d') && !d.outer.isEmpty then (d.pushBelow true '*', .whole (c :: rest))
      else (d.pushNames, .whole (c :: rest))

/-- Whether a branch matches nothing but the empty text because nothing stands in it. -/
def isBlank (branch : Glob) : Bool :=
  branch.all fun
    | .choice [] => true
    | _ => false

/-- The draft after an opening brace. -/
def openBrace (d : Draft) : Draft :=
  { d with outer := ([], d.parts) :: d.outer, parts := [], previous := some '\x7b' }

/-- The draft after a comma. -/
def comma (d : Draft) : Draft :=
  match d.outer with
  | [] => d.push (.char ',') ','
  | (branches, before) :: outer =>
    { d with outer := (d.parts.reverse :: branches, before) :: outer, parts := [],
             previous := some ',' }

/-- The draft after a closing brace.  Branches without a part do not count. -/
def closeBrace (d : Draft) : Except GlobFault Draft :=
  match d.outer with
  | [] => .error .unopenedBrace
  | (branches, before) :: outer =>
    let branches := (d.parts.reverse :: branches).reverse.filter (!isBlank ·)
    .ok { d with outer, parts := .choice branches :: before, previous := some '\x7d' }

end Draft

/-- The glob of a text after the parts of a draft.  With `plain`, a bracket that is not closed stands
for itself. -/
def readParts (plain : Bool) (d : Draft) (cs : List Char) : Except GlobFault Glob :=
  match cs with
  | [] => if d.outer.isEmpty then .ok d.parts.reverse else .error .unclosedBrace
  | '\\' :: [] => .error .danglingEscape
  | '\\' :: c :: rest => readParts plain (d.push (.char c) c) rest
  | '*' :: '*' :: rest =>
    match d.afterStars rest with
    | (d, ⟨rest, _⟩) => readParts plain d rest
  | '[' :: rest =>
    if d.plainBrackets then readParts plain (d.push (.char '[') '[') rest
    else
      match readClass rest with
      | .error fault => .error fault
      | .ok (some (part, ⟨rest, _⟩)) => readParts plain (d.push part ']') rest
      | .ok none =>
        if plain then
          readParts plain ({ d with plainBrackets := true }.push (.char '[') '[') rest
        else .error .unclosedBracket
  | c :: rest =>
    if c = '\x7b' then readParts plain d.openBrace rest
    else if c = '\x7d' then
      match d.closeBrace with
      | .error fault => .error fault
      | .ok d => readParts plain d rest
    else if c = ',' then readParts plain d.comma rest
    else
      readParts plain
        (d.push (if c = '?' then .anyByte else if c = '*' then .anyName else .char c) c) rest
  termination_by cs.length

/-- The glob of a text. -/
def ofText (plain : Bool) (s : String) : Except GlobFault Glob :=
  readParts plain ⟨[], [], none, false⟩ s.toList

end Glob

end Cohesion
