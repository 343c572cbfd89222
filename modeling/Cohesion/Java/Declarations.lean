import Cohesion.Java.Scope

/-!
# Declarations

The variables that a single node of a syntax tree declares, each with the simple name of its type: the
declarators of a field or local declaration, and parameters, loop variables, caught exceptions,
resources and lambda parameters.  A variable whose type is left to its initialiser has the type that
the initialiser spells out.
-/

namespace Cohesion.Java

/-- The type of the declarators of a declaration that leaves it to their initialisers. -/
def inferredType (s : Source) (declarator : Node) : String :=
  ((declarator.child? "value").bind (expressionType? s)).getD unresolvedReceiver

/-- The variables of a field or local declaration. -/
def declaredVariables (s : Source) (declaration : Node) : List (String × String) :=
  match declaration.child? "type" with
  | none => []
  | some type =>
    let isInferred := type.text s = "var"
    (declaration.childrenAt "declarator").filterMap fun declarator =>
      (declarator.child? "name").map fun name =>
        (name.text s, if isInferred then inferredType s declarator else simpleType s type)

/-- The type of a caught exception, if it is caught by one type alone. -/
def caughtType (s : Source) (parameter : Node) : String :=
  match parameter.namedChildren.find? (·.kind = "catch_type") with
  | none => unresolvedReceiver
  | some types =>
    match types.namedChildren with
    | [type] => simpleType s type
    | _ => unresolvedReceiver

/-- The variable of a parameter, loop, caught exception or resource. -/
def declaredVariable (s : Source) (n : Node) : List (String × String) :=
  match n.child? "name" with
  | none => []
  | some name =>
    match n.child? "type" with
    | some type => [(name.text s, simpleType s type)]
    | none => [(name.text s, caughtType s n)]

/-- The parameters of a lambda expression that have no declared type. -/
def lambdaVariables (s : Source) (lambda : Node) : List (String × String) :=
  match lambda.child? "parameters" with
  | none => []
  | some parameters =>
    match parameters.kind with
    | "identifier" => [(parameters.text s, unresolvedReceiver)]
    | "inferred_parameters" =>
      parameters.namedChildren.map fun name => (name.text s, unresolvedReceiver)
    | _ => []

/-- The variables that a node in a method body declares itself. -/
def ownVariables (s : Source) (n : Node) : List (String × String) :=
  match n.kind with
  | "local_variable_declaration" | "field_declaration" => declaredVariables s n
  | "formal_parameter" | "catch_formal_parameter" | "enhanced_for_statement" | "resource" =>
    declaredVariable s n
  | "lambda_expression" => lambdaVariables s n
  | _ => []

/-- The variable of a parameter that takes any number of arguments, which is an array. -/
def spreadVariable (s : Source) (parameter : Node) : List (String × String) :=
  match parameter.child? "type",
    (parameter.namedChildren.find? (·.kind = "variable_declarator")).bind (·.child? "name") with
  | some type, some name => [(name.text s, arrayOf (simpleType s type) 1)]
  | _, _ => []

/-- The formal parameters of a method. -/
def formalParameters (parameters : Node) : List Node :=
  parameters.namedChildren.filter fun p =>
    p.kind = "formal_parameter" || p.kind = "spread_parameter"

/-- The variable of a formal parameter. -/
def parameterVariable (s : Source) (parameter : Node) : List (String × String) :=
  if parameter.kind = "formal_parameter" then declaredVariable s parameter
  else spreadVariable s parameter

end Cohesion.Java
