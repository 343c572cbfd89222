import Cohesion.Glob
import Cohesion.Lists
import Cohesion.Regex.Nesting

/-!
# Regular expressions for globs

A list of globs is made ready for matching as a whole.  Globs that are little more than a text are
compared directly, and each of the others is turned into a regular expression.  Expressions may be
nested only so deep: `Glob.nesting` is the depth of an expression, and `nestingFault?` finds a glob of
a list that is too deep.
-/

namespace Cohesion

/-- A byte as an expression shows it. -/
def shownByte (b : UInt8) : List Char :=
  let c := Char.ofUInt8 b
  if 128 ≤ b then ['\\', 'x', Nat.digitChar (b.toNat / 16), Nat.digitChar (b.toNat % 16)]
  else if "\\.+*?()|[]\x7b\x7d^$#&-~".toList.contains c then ['\\', c]
  else [c]

/-- A range of bytes as an expression shows it. -/
def shownRange (range : UInt8 × UInt8) : List Char :=
  if range.1 = range.2 then shownByte range.1
  else shownByte range.1 ++ '-' :: shownByte range.2

mutual

/-- The expression of a part of a glob. -/
def GlobPart.expression : GlobPart → List Char
  | .char c => (String.utf8EncodeChar c).flatMap shownByte
  | .anyByte => "[^/]".toList
  | .anyName => "[^/]*".toList
  | .anyParents => "(?:/?|.*/)".toList
  | .anyInside => "/.*".toList
  | .anyBetween => "(?:/|/.*/)".toList
  | .oneOf outside ranges =>
    '[' :: (if outside then ['^'] else []) ++ ranges.flatMap shownRange ++ [']']
  | .choice [] => []
  | .choice (branch :: branches) =>
    "(?:".toList ++ Glob.partsExpression branch ++ GlobPart.branchesExpression branches ++ [')']

/-- The expression of some parts one after the other. -/
def Glob.partsExpression : List GlobPart → List Char
  | [] => []
  | part :: parts => part.expression ++ Glob.partsExpression parts

/-- The expression of further branches of a choice. -/
def GlobPart.branchesExpression : List (List GlobPart) → List Char
  | [] => []
  | branch :: branches =>
    '|' :: Glob.partsExpression branch ++ GlobPart.branchesExpression branches

end

/-- The number of pieces that the expression of a part has on its top level. -/
def GlobPart.pieces : GlobPart → Nat
  | .char c => (String.utf8EncodeChar c).length
  | .anyInside => 2
  | .choice [] => 0
  | _ => 1

mutual

/-- How deep the expression of a part is nested. -/
def GlobPart.nesting : GlobPart → Nat
  | .char _ => 0
  | .anyByte => 1
  | .anyName => 2
  | .anyParents => 4
  | .anyInside => 1
  | .anyBetween => 4
  | .oneOf _ ranges => if ranges.length ≤ 1 then 1 else 2
  | .choice [] => 0
  | .choice (branch :: branches) =>
    let inner := max (Glob.partsNesting branch) (GlobPart.branchesNesting branches)
    inner + (if branches.isEmpty then 1 else 2)

/-- How deep the expression of a branch is nested.  More than one piece is a level of its own. -/
def Glob.partsNesting (parts : List GlobPart) : Nat :=
  Glob.greatestNesting parts + (if total (parts.map GlobPart.pieces) ≤ 1 then 0 else 1)

/-- The greatest nesting of some parts. -/
def Glob.greatestNesting : List GlobPart → Nat
  | [] => 0
  | part :: parts => max part.nesting (Glob.greatestNesting parts)

/-- The greatest nesting of further branches of a choice. -/
def GlobPart.branchesNesting : List (List GlobPart) → Nat
  | [] => 0
  | branch :: branches => max (Glob.partsNesting branch) (GlobPart.branchesNesting branches)

end

namespace Glob

/-- The expression of a glob.  It matches bytes and the text as a whole. -/
def expression (g : Glob) : String :=
  let body : List Char := match g with
    | [.anyParents] => ".*".toList
    | g => partsExpression g
  "(?-u)^" ++ String.ofList body ++ "$"

/-- How deep the expression of a glob is nested. -/
def nesting (g : Glob) : Nat :=
  greatestNesting g + 1

/-- Whether the expression of a glob is nested too deep. -/
def isTooDeep (g : Glob) : Bool :=
  Regex.maxNesting < g.nesting

/-- Whether a part is a character other than these. -/
def isCharOutside (cs : List Char) : GlobPart → Bool
  | .char c => !cs.contains c
  | _ => false

/-- Whether a glob needs no expression: a text, a text after any parents, a text with anything inside,
or any name with a suffix. -/
def isDirect (g : Glob) : Bool :=
  match g with
  | .anyParents :: .anyName :: .char '.' :: rest => rest.all (isCharOutside ['.', '/'])
  | .anyParents :: rest => !rest.isEmpty && rest.all (isCharOutside [])
  | g =>
    match g.reverse with
    | .anyInside :: front => front.all (isCharOutside [])
    | back => !back.isEmpty && back.all (isCharOutside [])

/-- Whether a glob ends with a suffix: characters after a dot, none of them a slash. -/
def hasSuffix (g : Glob) : Bool :=
  (g.reverse.dropWhile (isCharOutside ['.', '/'])).head?.any fun
    | .char '.' => true
    | _ => false

end Glob

/-- A glob of a list whose expression is nested too deep. -/
inductive NestingFault where
  /-- The expression of a glob with a suffix. -/
  | expression (text : String)
  /-- The place of a glob without a suffix among all such globs. -/
  | position (index : Nat)

/-- A fault in words. -/
def NestingFault.message : NestingFault → String
  | .expression text => "error parsing glob '" ++ text ++ "': error parsing pattern 0"
  | .position index => "error parsing pattern " ++ toString index

/-- The first glob whose expression is nested too deep.  Globs with a suffix come first. -/
def nestingFault? (globs : List Glob) : Option NestingFault :=
  let (suffixed, others) := (globs.filter (!·.isDirect)).partition Glob.hasSuffix
  match suffixed.find? Glob.isTooDeep with
  | some g => some (.expression g.expression)
  | none => (others.findIdx? Glob.isTooDeep).map .position

end Cohesion
