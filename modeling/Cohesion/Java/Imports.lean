import Cohesion.Java.TypeName

/-!
# Static imports

The static imports of a source file say which type an unqualified method call may belong to.  If one
member is imported, its owner is known; all members of a type count only if no other type is imported
that way.
-/

namespace Cohesion.Java

/-- The static imports of one source file. -/
structure Imports where
  /-- The members that are imported one by one with their owners, the latest first. -/
  members : List (String × String)
  /-- The types of which all members are imported, each once. -/
  wildcardOwners : List String
  deriving DecidableEq

namespace Imports

/-- No imports. -/
def empty : Imports :=
  ⟨[], []⟩

/-- What an import declaration imports: the written path of a static import, and whether it means
all members. -/
def staticPath? (s : Source) (declaration : Node) : Option (List Char × Bool) :=
  let isStatic := declaration.children.any (·.kind = "static")
  let isWildcard := declaration.children.any (·.kind = "asterisk")
  let path := (declaration.children.filter fun c =>
    c.kind = "scoped_identifier" || c.kind = "identifier").getLast?
  match isStatic, path with
  | true, some p => some ((p.text s).toList, isWildcard)
  | _, _ => none

/-- The imports with a further import of everything from a path, or of the one member it ends in. -/
def add (imports : Imports) (path : List Char) (isWildcard : Bool) : Imports :=
  if isWildcard then
    let owner := String.ofList (lastSegment path)
    if owner ∈ imports.wildcardOwners then imports
    else ⟨imports.members, imports.wildcardOwners ++ [owner]⟩
  else
    match qualifier? path with
    | none => imports
    | some owner =>
      ⟨(String.ofList (lastSegment path), String.ofList (lastSegment owner)) :: imports.members,
        imports.wildcardOwners⟩

/-- The imports with those of a further import declaration. -/
def addDeclaration (s : Source) (imports : Imports) (declaration : Node) : Imports :=
  match staticPath? s declaration with
  | none => imports
  | some (path, isWildcard) => imports.add path isWildcard

/-- The static imports anywhere in a tree. -/
def ofTree (s : Source) (root : Node) : Imports :=
  (root.preorder.filter (·.kind = "import_declaration")).foldl (addDeclaration s) empty

/-- The type that an imported method belongs to. -/
def ownerOf? (imports : Imports) (method : String) : Option String :=
  match imports.members.find? (·.1 = method) with
  | some (_, owner) => some owner
  | none =>
    match imports.wildcardOwners with
    | [owner] => some owner
    | _ => none

end Imports

end Cohesion.Java
