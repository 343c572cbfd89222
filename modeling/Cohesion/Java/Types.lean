import Cohesion.Java.Calls

/-!
# Declared types

The facts about every type that a source file declares.  A type comes before the types nested in it,
and the methods in the body of an enum constant belong to the enum itself.
-/

namespace Cohesion.Java

/-- The kinds of nodes that declare a type. -/
def typeKinds : List String :=
  ["class_declaration", "interface_declaration", "enum_declaration", "record_declaration",
    "annotation_type_declaration"]

/-- The kinds of nodes that declare a method or constructor. -/
def methodKinds : List String :=
  ["method_declaration", "constructor_declaration", "compact_constructor_declaration"]

/-- Whether a node declares a type. -/
def declaresType (n : Node) : Bool :=
  typeKinds.contains n.kind

/-- Whether a node declares a method or constructor. -/
def declaresMethod (n : Node) : Bool :=
  methodKinds.contains n.kind

/-! ### Members -/

/-- The nodes that hold the members of a type: its body, or the part of the body of an enum after the
constants. -/
def memberContainers (declaration : Node) : List Node :=
  match declaration.child? "body" with
  | none => []
  | some body =>
    if body.kind = "enum_body" then
      body.namedChildren.filter (·.kind = "enum_body_declarations")
    else [body]

/-- The bodies of the constants of an enum. -/
def constantBodies (declaration : Node) : List Node :=
  match declaration.child? "body" with
  | none => []
  | some body =>
    if body.kind = "enum_body" then
      (body.namedChildren.filter (·.kind = "enum_constant")).filterMap (·.child? "body")
    else []

/-- The members of a type. -/
def membersOf (declaration : Node) : List Node :=
  (memberContainers declaration).flatMap (·.namedChildren)

/-- The members in the bodies of the constants of an enum. -/
def constantMembersOf (declaration : Node) : List Node :=
  (constantBodies declaration).flatMap (·.namedChildren)

theorem size_lt_of_mem_memberContainers {c n : Node} (h : c ∈ memberContainers n) :
  c.size < n.size
  := by
  rw [memberContainers] at h
  split at h
  · simp at h
  · rename_i body hbody
    have hb := Node.size_lt_of_child? hbody
    split at h
    · have := Node.size_lt_of_mem_namedChildren (List.mem_filter.1 h).1
      omega
    · rw [List.mem_singleton] at h
      rw [h]
      exact hb

theorem size_lt_of_mem_constantBodies {c n : Node} (h : c ∈ constantBodies n) :
  c.size < n.size
  := by
  rw [constantBodies] at h
  split at h
  · simp at h
  · rename_i body hbody
    have hb := Node.size_lt_of_child? hbody
    split at h
    · obtain ⟨constant, hconstant, hc⟩ := List.mem_filterMap.1 h
      have h₁ := Node.size_lt_of_mem_namedChildren (List.mem_filter.1 hconstant).1
      have h₂ := Node.size_lt_of_child? hc
      omega
    · simp at h

theorem size_lt_of_mem_members {m n : Node} (h : m ∈ membersOf n ++ constantMembersOf n) :
  m.size < n.size
  := by
  rcases List.mem_append.1 h with h | h
  · obtain ⟨c, hc, hm⟩ := List.mem_flatMap.1 h
    have h₁ := size_lt_of_mem_memberContainers hc
    have h₂ := Node.size_lt_of_mem_namedChildren hm
    omega
  · obtain ⟨c, hc, hm⟩ := List.mem_flatMap.1 h
    have h₁ := size_lt_of_mem_constantBodies hc
    have h₂ := Node.size_lt_of_mem_namedChildren hm
    omega

/-! ### Fields -/

/-- The visibility that a keyword grants. -/
def visibilityOfKeyword? (keyword : String) : Option Visibility :=
  match keyword with
  | "public" => some .isPublic
  | "protected" => some .isProtected
  | "private" => some .isPrivate
  | _ => none

/-- The visibility of a member, as the first keyword that grants one says. -/
def visibilityOf (member : Node) (usual : Visibility) : Visibility :=
  match member.children.find? (·.kind = "modifiers") with
  | none => usual
  | some modifiers =>
    (modifiers.children.findSome? fun keyword => visibilityOfKeyword? keyword.kind).getD usual

/-- The visibility of a member of a type that has no keyword for it. -/
def usualVisibility (declaration : Node) : Visibility :=
  match declaration.kind with
  | "interface_declaration" | "annotation_type_declaration" => .isPublic
  | _ => .packagePrivate

/-- The components of a record as private fields. -/
def recordFields (s : Source) (declaration : Node) : List FieldFacts :=
  match declaration.child? "parameters" with
  | none => []
  | some parameters =>
    parameters.namedChildren.filterMap fun parameter =>
      match parameter.child? "type", parameter.child? "name" with
      | some type, some name => some ⟨name.text s, simpleType s type, .isPrivate⟩
      | _, _ => none

/-- The fields that a member declares. -/
def memberFields (s : Source) (usual : Visibility) (member : Node) : List FieldFacts :=
  if member.kind = "field_declaration" || member.kind = "constant_declaration" then
    (declaredVariables s member).map fun (name, type) => ⟨name, type, visibilityOf member usual⟩
  else []

/-- The fields of a type, the components of a record first. -/
def fieldsOf (s : Source) (declaration : Node) : List FieldFacts :=
  recordFields s declaration
    ++ (membersOf declaration).flatMap (memberFields s (usualVisibility declaration))

/-! ### Methods -/

/-- The name of a member that is a method, and not a constructor. -/
def methodName? (s : Source) (member : Node) : Option String :=
  if member.kind = "method_declaration" then (member.child? "name").map (·.text s) else none

/-- The number of lines that a node spans. -/
def lineCount (s : Source) (n : Node) : Nat :=
  s.lineAt n.label.stop - s.lineAt n.label.start + 1

/-- The facts about a method or constructor. -/
def methodFacts (e : Surroundings) (member : Node) : MethodFacts :=
  let s := e.source
  let parameters := ((member.child? "parameters").map formalParameters).getD []
  let locals := Frames.start.declareAll (parameters.flatMap (parameterVariable s))
  let body := member.child? "body"
  { name := ((member.child? "name").map (·.text s)).getD ""
    params := parameters.length
    lines := (body.map (lineCount s)).getD 0
    calls := (body.map (collectCalls e locals)).getD [] }

/-! ### Types -/

/-- The class that a type extends. -/
def superclassOf? (s : Source) (declaration : Node) : Option String :=
  ((declaration.child? "superclass").bind (·.firstNamed?)).map (simpleType s)

/-- The interfaces that a type implements or extends. -/
def interfacesOf (s : Source) (declaration : Node) : List String :=
  (declaration.namedChildren.filter fun c =>
    c.kind = "super_interfaces" || c.kind = "extends_interfaces").flatMap (listedTypes s)

/-- What the members of a type can see of it. -/
def scopeOf (s : Source) (name : String) (declaration : Node) : TypeScope where
  name := name
  superclass := superclassOf? s declaration
  fields := ((fieldsOf s declaration).map fun f => (f.name, f.type)).reverse
  methods := (membersOf declaration ++ constantMembersOf declaration).filterMap (methodName? s)

/-- What a source file says about all its types. -/
structure FileContext where
  source : Source
  path : String
  package : String
  imports : Imports

/-- The facts about a type of its own, under the scopes of the types around it and itself. -/
def classFactsOf (c : FileContext) (scopes : List TypeScope) (name : String) (declaration : Node) :
    ClassFacts where
  name := name
  package := c.package
  path := c.path
  supertypes := (superclassOf? c.source declaration).toList ++ interfacesOf c.source declaration
  fields := fieldsOf c.source declaration
  methods := ((membersOf declaration ++ constantMembersOf declaration).filter declaresMethod).map
    (methodFacts ⟨c.source, c.imports, scopes⟩)

/-- The facts about a declared type and, after it, about those nested in it.  A declaration without a
name is left out with everything inside. -/
def typesOf (c : FileContext) (outer : List TypeScope) (declaration : Node) : List ClassFacts :=
  match declaration.child? "name" with
  | none => []
  | some nameNode =>
    let name := nameNode.text c.source
    let scopes := scopeOf c.source name declaration :: outer
    let members := membersOf declaration ++ constantMembersOf declaration
    classFactsOf c scopes name declaration :: members.attach.flatMap fun ⟨m, h⟩ =>
      have := size_lt_of_mem_members h
      if declaresType m then typesOf c scopes m else []
termination_by declaration.size

/-! ### Files -/

/-- The package that a source file declares. -/
def packageOf (s : Source) (root : Node) : String :=
  match root.namedChildren.find? (·.kind = "package_declaration") with
  | none => defaultPackage
  | some package =>
    match package.namedChildren.find? fun c =>
      c.kind = "scoped_identifier" || c.kind = "identifier" with
    | none => defaultPackage
    | some name => name.text s

/-- The facts of one source file. -/
structure FileFacts where
  classes : List ClassFacts
  hasErrors : Bool

/-- The facts of the source file at a path. -/
def extract (s : Source) (path : String) (root : Node) : FileFacts :=
  let context : FileContext := ⟨s, path, packageOf s root, Imports.ofTree s root⟩
  ⟨(root.namedChildren.filter declaresType).flatMap (typesOf context []), root.hasError⟩

/-- The facts of a project without files. -/
def noFacts : ProjectFacts :=
  ⟨0, 0, []⟩

/-- The facts of a project with those of a further file. -/
def addFile (facts : ProjectFacts) (file : FileFacts) : ProjectFacts :=
  ⟨facts.filesScanned + 1, facts.parseErrors + (if file.hasErrors then 1 else 0),
    facts.classes ++ file.classes⟩

end Cohesion.Java
