/-!
# TOML values

A TOML document is a table.  Its tables are made in four ways, which a `TableKind` tells apart because
they decide what may be added later: a table in braces is closed, one that a header names is made only
once, and one that is only on the way to another may still get a header of its own.
-/

namespace Cohesion

namespace Toml

/-- How a table was made. -/
inductive TableKind where
  /-- In braces. -/
  | closed
  /-- By a header of its own. -/
  | header
  /-- By the header of a table inside of it. -/
  | implied
  /-- By a key with dots. -/
  | dotted
  deriving DecidableEq

/-- A value of a document. -/
inductive Value where
  | text (s : String)
  | integer (n : Int)
  | float (x : Float)
  | boolean (b : Bool)
  /-- A date, a time or both. -/
  | moment
  | list (items : List Value)
  | table (kind : TableKind) (members : List (String × Value))
  /-- A list of tables that each have a header, of which the last is under way. -/
  | tables (earlier : List (List (String × Value))) (last : List (String × Value))

/-- The members of a table in the order in which they were made. -/
abbrev Members := List (String × Value)

namespace Members

/-- The members with another value under a key that is there. -/
def replace (ms : Members) (key : String) (value : Value) : Members :=
  ms.map fun (k, v) => if k = key then (k, value) else (k, v)

/-- The members with a value under a new key. -/
def add? (ms : Members) (key : String) (value : Value) : Option Members :=
  if (ms.lookup key).isSome then none else some (ms ++ [(key, value)])

/-- Changes the table that a header leads to.  Tables that are missing on the way are made. -/
def changeAt (change : Members → Option Members) : List String → Members → Option Members
  | [], ms => change ms
  | key :: path, ms =>
    match ms.lookup key with
    | none => (changeAt change path []).map fun inner => ms ++ [(key, .table .implied inner)]
    | some (.table kind inner) =>
      if kind = .closed then none
      else (changeAt change path inner).map fun inner => ms.replace key (.table kind inner)
    | some (.tables earlier last) =>
      (changeAt change path last).map fun last => ms.replace key (.tables earlier last)
    | some _ => none

/-- Adds a value under a key with dots, of which `path` is all but the last part.  The table that it
leads to has to be one that such keys have made; on the way there may also be tables that are only
implied, and the last table of a list. -/
def addDotted (key : String) (value : Value) : List String → Members → Option Members
  | [], ms => ms.add? key value
  | k :: path, ms =>
    match ms.lookup k with
    | none => (addDotted key value path []).map fun inner => ms ++ [(k, .table .dotted inner)]
    | some (.table kind inner) =>
      if kind = .dotted || kind = .implied && !path.isEmpty then
        (addDotted key value path inner).map fun inner => ms.replace k (.table kind inner)
      else none
    | some (.tables earlier last) =>
      if path.isEmpty then none
      else (addDotted key value path last).map fun last => ms.replace k (.tables earlier last)
    | some _ => none

/-- Starts the table of a header, whose last key is `key`. -/
def startTable (key : String) (ms : Members) : Option Members :=
  match ms.lookup key with
  | none => some (ms ++ [(key, .table .header [])])
  | some (.table .implied inner) => some (ms.replace key (.table .header inner))
  | some _ => none

/-- Starts another table in the list of a header, whose last key is `key`. -/
def startElement (key : String) (ms : Members) : Option Members :=
  match ms.lookup key with
  | none => some (ms ++ [(key, .tables [] [])])
  | some (.tables earlier last) => some (ms.replace key (.tables (earlier ++ [last]) []))
  | some _ => none

end Members

end Toml

end Cohesion
