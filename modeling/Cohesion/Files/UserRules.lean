import Cohesion.Files.Environment
import Cohesion.Files.IgnoreRules

/-!
# The ignore file of the user

Users can have one ignore file for all repositories.  Its path is the value of `excludesfile` in their
version control settings, or a fixed one below their settings directory.  These settings are not read
line by line: any blanks, also line breaks, may stand around the equals sign and the value, but not in
the value.
-/

namespace Cohesion

namespace UserRules

/-- Whether a byte is a blank character by itself. -/
def isBlankByte (b : UInt8) : Bool :=
  b = 32 || (9 ≤ b && b ≤ 13)

/-- What follows the blanks at the front of some bytes, which may go on over many lines. -/
def afterBlanks (bs : List UInt8) : List UInt8 :=
  bs.dropWhile isBlankByte

/-- The bytes from the start of each line on. -/
def fromEachLine (bs : List UInt8) : List (List UInt8) :=
  bs :: go bs
where
  /-- What follows each line break. -/
  go : List UInt8 → List (List UInt8)
    | [] => []
    | b :: bs => if b = 10 then bs :: go bs else go bs

/-- Whether blanks reach to the end of a line. -/
def endsLine (bs : List UInt8) : Bool :=
  (bs.takeWhile isBlankByte).contains 10 || (afterBlanks bs).isEmpty

/-- What follows a quotation mark. -/
def afterMark? : List UInt8 → Option (List UInt8)
  | [] => none
  | b :: bs => if Char.ofUInt8 b = '"' then some bs else none

/-- Whether a value can end here: with its line, perhaps after a quotation mark. -/
def endsValue (bs : List UInt8) : Bool :=
  endsLine bs || (afterMark? (afterBlanks bs)).any endsLine

/-- The shortest front of some bytes without blanks behind which a value can end. -/
def shortestValue? : List UInt8 → Option (List UInt8)
  | [] => none
  | b :: bs =>
    if isBlankByte b then none
    else if endsValue bs then some [b]
    else (shortestValue? bs).map (b :: ·)

/-- A value, which may have a quotation mark in front; it may also start with that mark. -/
def value? (bs : List UInt8) : Option (List UInt8) :=
  let bs := afterBlanks bs
  ((afterMark? bs).bind fun bs => shortestValue? (afterBlanks bs)).orElse fun _ =>
    shortestValue? bs

/-- The key of the path, in small letters. -/
def key : List Char := "excludesfile".toList

/-- The value of the key at the start of some bytes. -/
def valueOfKey? (bs : List UInt8) : Option (List UInt8) :=
  let bs := afterBlanks bs
  if (bs.take key.length).map (fun b => (Char.ofUInt8 b).toLower) = key then
    match afterBlanks (bs.drop key.length) with
    | b :: bs => if Char.ofUInt8 b = '=' then value? bs else none
    | [] => none
  else none

/-- A path in which tildes stand for the home directory. -/
def expandHome (home path : String) : String :=
  String.ofList (path.toList.flatMap fun c => if c = '~' then home.toList else [c])

/-- The path that a file of settings gives to the ignore file. -/
def pathOfSettings? (e : Environment) (path : String) : Option String :=
  (e.content? path).bind fun content =>
    (((fromEachLine content.toList).findSome? valueOfKey?).bind textOfBytes?).map
      (expandHome e.home)

/-- The path of the ignore file. -/
def path (e : Environment) : String :=
  let settings := e.settingsDirectory
  ((pathOfSettings? e (Path.join e.home ".gitconfig")).orElse fun _ =>
    pathOfSettings? e (Path.join settings "git/config")).getD (Path.join settings "git/ignore")

/-- The rules of the ignore file. -/
def rules (e : Environment) : List IgnoreRule :=
  (IgnoreRules.ofFile e (path e)).1

/-- A path as these rules see it: without the working directory in front, if it starts with that. -/
def relativePath (e : Environment) (path : String) : String :=
  match e.workingDirectory.path.toList.isPrefixOf? path.toList with
  | some ('/' :: rest) => String.ofList rest
  | some rest => String.ofList rest
  | none => path

end UserRules

end Cohesion
