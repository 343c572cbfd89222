import Cohesion.Facts
import Cohesion.Java.Node
import Cohesion.Text.Lines

/-!
# Names of types

The simple name of a type is what is left of it without type arguments, packages and annotations;
one pair of brackets is kept for each dimension of an array.  `expressionType?` gives the simple name
of the type of an expression that spells it out: an object creation, a cast or a text.
-/

namespace Cohesion.Java

/-- What follows the last dot of a qualified name. -/
def lastSegment (path : List Char) : List Char :=
  (path.reverse.takeWhile (· ≠ '.')).reverse

/-- What stands before the last dot of a qualified name, if there is a dot. -/
def qualifier? (path : List Char) : Option (List Char) :=
  match path.reverse.dropWhile (· ≠ '.') with
  | [] => none
  | _ :: before => some before.reverse

/-- A type as it is written, without type arguments, packages and blanks. -/
def erase (written : String) : String :=
  String.ofList (trimChars (lastSegment (written.toList.takeWhile (· ≠ '<'))))

/-- A type name with so many pairs of brackets. -/
def arrayOf (element : String) (dimensions : Nat) : String :=
  element ++ String.join (List.replicate dimensions "[]")

/-- The number of dimensions that the brackets of an array type stand for, at least one. -/
def dimensionsOf (brackets : Option String) : Nat :=
  match brackets with
  | none => 1
  | some text => max (text.toList.count '[') 1

/-- The simple name of the type that a node denotes. -/
def simpleType (s : Source) (n : Node) : String :=
  match n.kind with
  | "generic_type" =>
    match h : n.firstNamed? with
    | some base =>
      have := Node.size_lt_of_firstNamed? h
      simpleType s base
    | none => erase (n.text s)
  | "scoped_type_identifier" | "annotated_type" =>
    match h : n.lastNamed? with
    | some last =>
      have := Node.size_lt_of_lastNamed? h
      simpleType s last
    | none => erase (n.text s)
  | "array_type" =>
    let element :=
      match h : n.child? "element" with
      | some e =>
        have := Node.size_lt_of_child? h
        simpleType s e
      | none => unresolvedReceiver
    arrayOf element (dimensionsOf ((n.child? "dimensions").map (·.text s)))
  | _ => erase (n.text s)
termination_by n.size

/-- The simple names of the types of a list, also of lists inside it. -/
def listedTypes (s : Source) (n : Node) : List String :=
  n.namedChildren.attach.flatMap fun ⟨c, h⟩ =>
    have := Node.size_lt_of_mem_namedChildren h
    if c.kind = "type_list" then listedTypes s c else [simpleType s c]
termination_by n.size

/-- The simple name of the type of an expression that spells its type out. -/
def expressionType? (s : Source) (n : Node) : Option String :=
  match n.kind with
  | "object_creation_expression" | "cast_expression" => (n.child? "type").map (simpleType s)
  | "parenthesized_expression" =>
    match h : n.firstNamed? with
    | some inner =>
      have := Node.size_lt_of_firstNamed? h
      expressionType? s inner
    | none => none
  | "string_literal" => some "String"
  | _ => none
termination_by n.size

end Cohesion.Java
