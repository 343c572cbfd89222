import Cohesion.Java.TypeName

/-!
# Scopes

What a name in a method body may refer to.  A `TypeScope` holds the declarations of one enclosing
type; the innermost one comes first in a list of scopes.  The `Frames` of a method body hold its local
variables, one frame for each block that is open; a name means its innermost declaration.
-/

namespace Cohesion.Java

/-- The fields and methods of one enclosing type. -/
structure TypeScope where
  name : String
  superclass : Option String
  /-- The types of the fields, later declarations first. -/
  fields : List (String × String)
  methods : List String

/-- The value of the first entry for a name. -/
def lookUp? {α : Type} (entries : List (String × α)) (name : String) : Option α :=
  (entries.find? (·.1 = name)).map (·.2)

namespace TypeScope

/-- The innermost type, or the unresolved receiver outside of all types. -/
def enclosing (scopes : List TypeScope) : String :=
  match scopes with
  | scope :: _ => scope.name
  | [] => unresolvedReceiver

/-- The superclass of the innermost type, or that type itself if it extends nothing. -/
def parent (scopes : List TypeScope) : String :=
  match scopes with
  | scope :: _ => scope.superclass.getD scope.name
  | [] => unresolvedReceiver

/-- The innermost field of a name. -/
def field? (scopes : List TypeScope) (name : String) : Option String :=
  scopes.findSome? fun scope => lookUp? scope.fields name

end TypeScope

/-- The local variables of a method body with their types, the innermost frame first.  In a frame,
later declarations come first. -/
abbrev Frames := List (List (String × String))

namespace Frames

/-- One frame without variables. -/
def start : Frames :=
  [[]]

/-- A further innermost frame. -/
def push (frames : Frames) : Frames :=
  [] :: frames

/-- The frames without the innermost one; the last frame stays. -/
def pop (frames : Frames) : Frames :=
  match frames with
  | _ :: outer :: rest => outer :: rest
  | frames => frames

/-- A variable declared in the innermost frame. -/
def declare (frames : Frames) (name type : String) : Frames :=
  match frames with
  | frame :: rest => ((name, type) :: frame) :: rest
  | [] => []

/-- Variables declared one after the other. -/
def declareAll (frames : Frames) (locals : List (String × String)) : Frames :=
  locals.foldl (fun frames v => frames.declare v.1 v.2) frames

/-- The type of the innermost variable of a name. -/
def type? (frames : Frames) (name : String) : Option String :=
  frames.findSome? fun frame => lookUp? frame name

end Frames

end Cohesion.Java
