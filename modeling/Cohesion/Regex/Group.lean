import Cohesion.Regex.Mode
import Cohesion.Text.Alphabetic

/-!
# What a round bracket opens

A round bracket opens a group, which may have a name or flags of its own, or it holds flags for all
that follows up to the end of the group around it.
-/

namespace Cohesion

namespace Regex

/-- What a round bracket opens. -/
inductive Opening where
  /-- A group that is read in a mode; its name is empty if it has none. -/
  | group (m : Mode) (name : List Char)
  /-- Nothing: what follows is read in another mode. -/
  | flags (m : Mode)

/-- Whether a character can stand in the name of a group behind the first. -/
def isNameChar (c : Char) : Bool :=
  ['_', '.', '[', ']'].contains c || isAlphanumeric c

/-- Whether a text can be the name of a group. -/
def isGroupName (name : List Char) : Bool :=
  match name with
  | [] => false
  | c :: cs => (c = '_' || isAlphabetic c) && cs.all isNameChar

/-- The letters of the flags. -/
def flagLetters : List Char :=
  ['i', 'm', 's', 'U', 'u', 'R', 'x']

/-- What a group with a name opens.  The name ends at the first angle bracket. -/
def readGroupName (m : Mode) (cs : List Char) : Option (Opening × Rest cs) :=
  let name := cs.takeWhile (· ≠ '>')
  let mark := Rest.dropWhile (· ≠ '>') cs
  if isGroupName name && !mark.1.isEmpty then
    some (.group m name, mark.within (.behindFirst mark.1))
  else none

/-- The flags that a text sets or, behind a hyphen, clears.  None is named twice. -/
def flags? (cs : List Char) : Option (List (Char × Bool)) :=
  let set := cs.takeWhile (· ≠ '-')
  let hyphen := cs.dropWhile (· ≠ '-')
  let letters := set ++ hyphen.drop 1
  if hyphen ≠ ['-'] && letters.all flagLetters.contains && letters.eraseDups = letters then
    some (set.map (·, true) ++ (hyphen.drop 1).map (·, false))
  else none

/-- What flags open.  A colon behind them opens a group, and a bracket closes them. -/
def readFlags (m : Mode) (cs : List Char) : Option (Opening × Rest cs) :=
  let isFlag := fun c => c ≠ ':' && c ≠ ')'
  let mark := Rest.dropWhile isFlag cs
  let rest := mark.within (.behindFirst mark.1)
  match mark.1.head?, flags? (cs.takeWhile isFlag) with
  | some ')', some flags => if flags.isEmpty then none else some (.flags (m.withFlags flags), rest)
  | some _, some flags => some (.group (m.withFlags flags) [], rest)
  | _, _ => none

/-- What a round bracket opens that is taken, in front of a text. -/
def readOpening (m : Mode) (cs : List Char) : Option (Opening × Rest cs) :=
  match m.skip cs with
  | ⟨'?' :: 'P' :: '<' :: rest, h⟩ =>
    (readGroupName m rest).map fun (opening, inner) =>
      (opening, Rest.within ⟨'?' :: 'P' :: '<' :: rest, h⟩ inner.behind.behind.behind)
  | ⟨'?' :: '<' :: rest, h⟩ =>
    (readGroupName m rest).map fun (opening, inner) =>
      (opening, Rest.within ⟨'?' :: '<' :: rest, h⟩ inner.behind.behind)
  | ⟨'?' :: rest, h⟩ =>
    (readFlags m rest).map fun (opening, inner) =>
      (opening, Rest.within ⟨'?' :: rest, h⟩ inner.behind)
  | rest => some (.group m [], rest)

end Regex

end Cohesion
