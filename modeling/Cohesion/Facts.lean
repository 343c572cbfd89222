/-!
# Facts about classes

What the analysis knows about one declared type is a `ClassFacts`: its name, where it was found,
what it extends, its fields, and for each method the calls made in its body.  A call names its
receiver by the simple name of a type, or by `unresolvedReceiver` if no type could be inferred.
`ClassFacts.callsTo` counts the calls on one receiver; it is the only thing the couplings depend on.
-/

namespace Cohesion

/-- The receiver of a call whose target type is not known. -/
def unresolvedReceiver : String := "<?>"

/-- The package of a source file that declares none. -/
def defaultPackage : String := "(default package)"

/-- One method call in a method body. -/
structure CallSite where
  method : String
  /-- The simple name of the receiver's type. -/
  receiver : String
  /-- The line of the called name, counted from zero. -/
  line : Nat
  deriving DecidableEq

/-- One method or constructor. -/
structure MethodFacts where
  name : String
  /-- The number of formal parameters. -/
  params : Nat
  /-- The number of lines the body spans, zero without a body. -/
  lines : Nat
  calls : List CallSite
  deriving DecidableEq

/-- Who may see a field. -/
inductive Visibility where
  | isPublic
  | isProtected
  | isPrivate
  | packagePrivate
  deriving DecidableEq

/-- The name of a visibility in reports. -/
def Visibility.text : Visibility → String
  | .isPublic => "public"
  | .isProtected => "protected"
  | .isPrivate => "private"
  | .packagePrivate => "package-private"

/-- The visibility of a name. -/
def Visibility.ofText? (s : String) : Option Visibility :=
  [isPublic, isProtected, isPrivate, packagePrivate].find? (·.text = s)

/-- One declared field or record component. -/
structure FieldFacts where
  name : String
  type : String
  visibility : Visibility
  deriving DecidableEq

/-- Everything that is known about one declared type. -/
structure ClassFacts where
  name : String
  package : String
  /-- The source file that declares the type. -/
  path : String
  /-- The superclass first, then the interfaces. -/
  supertypes : List String
  fields : List FieldFacts
  methods : List MethodFacts
  deriving DecidableEq

namespace ClassFacts

/-- All calls made from the methods of a class, in order. -/
def calls (c : ClassFacts) : List CallSite :=
  c.methods.flatMap (·.calls)

/-- The number of calls whose receiver is exactly `name`. -/
def callsTo (c : ClassFacts) (name : String) : Nat :=
  c.calls.countP (·.receiver = name)

/-- The classes of a list without those whose name an earlier one has. -/
def firstByName : List ClassFacts → List ClassFacts
  | [] => []
  | c :: rest => c :: (firstByName rest).filter (·.name ≠ c.name)

end ClassFacts

/-- The facts of a whole project. -/
structure ProjectFacts where
  filesScanned : Nat
  /-- The number of files with syntax errors; their facts are taken nevertheless. -/
  parseErrors : Nat
  classes : List ClassFacts
  deriving DecidableEq

end Cohesion
