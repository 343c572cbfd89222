import Cohesion.Regex.Atom

/-!
# Classes of characters in brackets

A class in brackets lists characters, ranges and other classes.  Two classes can be intersected,
subtracted or compared by a doubled sign between them.  What is read of a class is how deep it is
nested.
-/

namespace Cohesion

namespace Regex

/-- A class under way. -/
structure SetDraft where
  /-- How deep the class in front of the last operator is nested. -/
  left : Option Nat
  /-- The number of items behind that, and how deep they are nested. -/
  items : Nat
  inner : Nat

namespace SetDraft

/-- A class with some items that are characters. -/
def ofChars (items : Nat) : SetDraft :=
  ⟨none, items, 0⟩

/-- The class with another item, which is nested so deep. -/
def push (d : SetDraft) (nesting : Nat) : SetDraft :=
  { d with items := d.items + 1, inner := max d.inner nesting }

/-- How deep the contents of the class are nested. -/
def nesting (d : SetDraft) : Nat :=
  let items := if d.items ≤ 1 then d.inner else d.inner + 1
  match d.left with
  | none => items
  | some left => max left items + 1

/-- The class after an operator. -/
def operator (d : SetDraft) : SetDraft :=
  ⟨some d.nesting, 0, 0⟩

end SetDraft

/-- The names of classes of ASCII characters. -/
def asciiNames : List (List Char) :=
  ["alnum", "alpha", "ascii", "blank", "cntrl", "digit", "graph", "lower", "print", "punct", "space",
    "upper", "word", "xdigit"].map String.toList

/-- Whether a named class of ASCII characters is negated, and what follows it.  Its opening bracket is
taken. -/
def readNamed (cs : List Char) : Option (Bool × Rest cs) :=
  match cs with
  | ':' :: rest =>
    let negated := rest.head? = some '^'
    let body : Rest rest := if negated then .behindFirst rest else .whole rest
    match Rest.dropWhile (· ≠ ':') body.1 with
    | ⟨':' :: ']' :: after, h⟩ =>
      if asciiNames.contains (body.1.takeWhile (· ≠ ':')) then
        let mark : Rest body.1 := Rest.within ⟨':' :: ']' :: after, h⟩ (Rest.whole after).behind.behind
        some (negated, (body.within mark).behind)
      else none
    | _ => none
  | _ => none

/-- The number of hyphens at the front of a class, each of which is an item, and what follows them. -/
def readHyphens (m : Mode) (items : Nat) (cs : List Char) : Nat × Rest cs :=
  match cs with
  | '-' :: rest =>
    let next := m.skip rest
    let (items, inner) := readHyphens m (items + 1) next.1
    (items, (next.within inner).behind)
  | cs => (items, .whole cs)
  termination_by cs.length
  decreasing_by exact Nat.lt_succ_of_le (m.skip rest).2

/-- The front of a class whose opening bracket is taken.  A closing bracket right there is an item. -/
def openSet (m : Mode) (cs : List Char) : Option (SetDraft × Rest cs) :=
  let start := m.skip cs
  let negated := start.1.head? = some '^'
  if negated && !m.unicode then none
  else
    let front := start.within (if negated then .behindFirst start.1 else .whole start.1)
    let items := front.within (m.skip front.1)
    match readHyphens m 0 items.1 with
    | (0, ⟨']' :: rest, h⟩) =>
      some (.ofChars 1, items.within (Rest.within ⟨']' :: rest, h⟩ (m.skip rest).behind))
    | (hyphens, inner) => some (.ofChars hyphens, items.within inner)

/-- One end of a range, or a whole item. -/
def readItem (m : Mode) (cs : List Char) : Option (Atom × Rest cs) :=
  match cs with
  | [] => none
  | '\\' :: rest => (readEscape m rest).map fun (atom, rest) => (atom, rest.behind)
  | c :: rest => some (.char c false, (Rest.whole rest).behind)

/-- The next character behind a hyphen. -/
def behindHyphen? (m : Mode) (cs : List Char) : Option Char :=
  if m.spaced then
    match cs.dropWhile isBlank with
    | '#' :: cs => (cs.dropWhile isBlank).head?
    | cs => cs.head?
  else cs.head?

/-- Whether a hyphen makes a range with what follows it. -/
def isRange (m : Mode) (cs : List Char) : Bool :=
  behindHyphen? m cs ≠ some ']' && behindHyphen? m cs ≠ some '-'

/-- Passes over an item or a range of a class. -/
def skipItem (m : Mode) (cs : List Char) : Option (Rest cs) :=
  match readItem m cs with
  | none => none
  | some (first, rest) =>
    if !first.isSoundItem m then none
    else
      let next := rest.within (m.skip rest.1)
      match next with
      | ⟨'-' :: more, h⟩ =>
        if !isRange m more then some next
        else
          let start := Rest.within ⟨'-' :: more, h⟩ (m.skip more).behind
          match first, readItem m start.1 with
          | .char low _, some (.char high asByte, rest) =>
            if (Atom.char high asByte).isSoundItem m && low ≤ high then some (start.within rest)
            else none
          | _, _ => none
      | next => some next

/-- How deep a class in brackets is nested, and what follows it.  `outer` are the classes that it stands
in, from the inside out. -/
def readSet (m : Mode) (outer : List SetDraft) (d : SetDraft) (cs : List Char) :
    Option (Nat × Rest cs) :=
  match m.skip cs with
  | ⟨[], _⟩ => none
  | ⟨c :: rest, h⟩ =>
    let taken (inner : Rest rest) : Rest cs := Rest.within ⟨c :: rest, h⟩ inner.behind
    let next (outer : List SetDraft) (d : SetDraft) (text : Rest rest) : Option (Nat × Rest cs) :=
      (readSet m outer d text.1).map fun (nesting, inner) => (nesting, taken (text.within inner))
    if c = ']' then
      match outer with
      | [] => some (d.nesting + 1, taken (.whole rest))
      | around :: outer => next outer (around.push (d.nesting + 1)) (.whole rest)
    else if c = '[' then
      match readNamed rest with
      | some (negated, rest) => if negated && !m.unicode then none else next outer (d.push 0) rest
      | none =>
        match openSet m rest with
        | none => none
        | some (inner, rest) => next (d :: outer) inner rest
    else if (c = '&' || c = '-' || c = '~') && rest.head? = some c then
      next outer d.operator (.behindFirst rest)
    else
      match skipItem m (c :: rest) with
      | none => none
      | some ⟨text, _⟩ =>
        if h : text.length ≤ rest.length then next outer (d.push 0) ⟨text, h⟩ else none
  termination_by cs.length
  decreasing_by exact Nat.lt_of_le_of_lt text.2 h

end Regex

end Cohesion
