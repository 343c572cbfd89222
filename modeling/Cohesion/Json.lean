/-!
# Structured answers

A `Json` value is what the program answers with.  The members of an object keep their order;
`Json.sortKeys` puts the members of every object into the order of their names.  Counts and scores
are different cases because they are written differently.
-/

namespace Cohesion

/-- A value that can be written as JSON text. -/
inductive Json where
  | null
  | bool (b : Bool)
  | nat (n : Nat)
  | number (x : Float)
  | text (s : String)
  | list (items : List Json)
  | object (members : List (String × Json))

namespace Json

/-- A list of texts. -/
def texts (xs : List String) : Json :=
  .list (xs.map .text)

/-- The members that are there, of a list of members that may be absent. -/
def present (members : List (String × Option Json)) : Json :=
  .object (members.filterMap fun (name, value) => value.map (name, ·))

mutual

/-- The same value with the members of every object ordered by name. -/
def sortKeys : Json → Json
  | .list items => .list (sortKeysOfItems items)
  | .object members =>
    .object ((sortKeysOfMembers members).mergeSort fun a b => decide (a.1 ≤ b.1))
  | .null => .null
  | .bool b => .bool b
  | .nat n => .nat n
  | .number x => .number x
  | .text s => .text s

/-- `sortKeys` on every item of a list. -/
def sortKeysOfItems : List Json → List Json
  | [] => []
  | item :: items => item.sortKeys :: sortKeysOfItems items

/-- `sortKeys` on the value of every member. -/
def sortKeysOfMembers : List (String × Json) → List (String × Json)
  | [] => []
  | (name, value) :: members => (name, value.sortKeys) :: sortKeysOfMembers members

end

end Json

end Cohesion
