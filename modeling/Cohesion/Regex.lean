import Cohesion.Regex.CharSet
import Cohesion.Regex.Group
import Cohesion.Regex.Nesting

/-!
# Regular expressions for the values of fields

An expression has branches, and a branch has pieces: atoms, classes in brackets and groups, each of
which may be repeated.  An expression has to be well formed, it may not be nested too deep, and it may
not ask for the edges of words, unless these are edges between bytes.  `Regex.fault?` says which of
these an expression breaks.
-/

namespace Cohesion

namespace Regex

/-- What is wrong with an expression. -/
inductive Fault where
  | malformed
  | wordEdge
  deriving DecidableEq

/-- A fault in words. -/
def Fault.message : Fault → String
  | .malformed => "error building NFA"
  | .wordEdge =>
    "unsupported regex feature for DFAs: cannot build DFAs for regexes with Unicode word boundaries; "
      ++ "switch to ASCII word boundaries, or heuristically enable Unicode word boundaries or use a "
      ++ "different regex engine"

/-- What is read of a whole expression: how deep it is nested, and whether it asks for the edges of
words. -/
structure Summary where
  nesting : Nat
  wordEdge : Bool

/-- The atom that a character starts. -/
def readAtom (m : Mode) (c : Char) (rest : List Char) : Option (Atom × Rest rest) :=
  if c = '\\' then readEscape m rest
  else if c = '.' then some (.any, .whole rest)
  else if c = '^' || c = '$' then some (.place false, .whole rest)
  else some (.char c false, .whole rest)

/-- A class in brackets whose opening bracket is taken: how deep it is nested. -/
def readClass (m : Mode) (cs : List Char) : Option (Nat × Rest cs) :=
  match openSet m cs with
  | none => none
  | some (d, rest) =>
    (readSet m [] d rest.1).map fun (nesting, inner) => (nesting, rest.within inner)

/-- What is left of a text behind a sign for repetition.  A question mark there belongs to it. -/
def afterRepetition (cs : List Char) : Rest cs :=
  if cs.head? = some '?' then .behindFirst cs else .whole cs

/-- Reads the rest of an expression.  `outer` are the groups around the group `l`, from the inside out,
`names` are the names of the groups so far, and `wordEdge` is whether an edge of a word was asked
for. -/
def read (outer : List Level) (l : Level) (names : List (List Char)) (wordEdge : Bool)
    (cs : List Char) : Option Summary :=
  match l.mode.skip cs with
  | ⟨[], _⟩ => if outer.isEmpty then some ⟨l.nesting, wordEdge⟩ else none
  | ⟨c :: rest, _⟩ =>
    if c = '(' then
      match readOpening l.mode rest with
      | none => none
      | some (.flags m, ⟨rest, _⟩) => read outer (l.withMode m) names wordEdge rest
      | some (.group m [], ⟨rest, _⟩) => read (l :: outer) (.start m) names wordEdge rest
      | some (.group m name, ⟨rest, _⟩) =>
        if names.contains name then none
        else read (l :: outer) (.start m) (name :: names) wordEdge rest
    else if c = ')' then
      match outer with
      | [] => none
      | around :: outer => read outer (around.push (l.nesting + 1)) names wordEdge rest
    else if c = '|' then read outer l.nextBranch names wordEdge rest
    else if c = '[' then
      match readClass l.mode rest with
      | none => none
      | some (nesting, ⟨rest, _⟩) => read outer (l.push nesting) names wordEdge rest
    else if c = '?' || c = '*' || c = '+' then
      match l.repeated?, afterRepetition rest with
      | none, _ => none
      | some l, ⟨rest, _⟩ => read outer l names wordEdge rest
    else if c = '\x7b' then none
    else
      match readAtom l.mode c rest with
      | none => none
      | some (atom, ⟨rest, _⟩) =>
        if atom.isSound l.mode then
          read outer (l.push 0) names (wordEdge || l.mode.unicode && atom.isWordEdge) rest
        else none
  termination_by cs.length
  decreasing_by all_goals grind

/-- What is wrong with an expression. -/
def fault? (cs : List Char) : Option Fault :=
  match read [] (.start .start) [] false cs with
  | none => some .malformed
  | some summary =>
    if maxNesting < summary.nesting then some .malformed
    else if summary.wordEdge then some .wordEdge
    else none

end Regex

end Cohesion
