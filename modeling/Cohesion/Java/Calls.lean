import Cohesion.Java.Declarations
import Cohesion.Java.Imports
import Cohesion.Lists
import Cohesion.Text.UpperCase

/-!
# Calls in method bodies

The calls of a method body in the order of the source, each with the receiver that the declarations
before it allow to infer.  A variable goes out of scope at the end of the block, loop, catch clause,
lambda expression or class body that declares it.  Calls in lambda expressions and in local and
anonymous classes count as calls of the enclosing method.

`callsOf` says which calls these are, by recursion on the tree.  `collectCalls` finds them with a list
of what remains to be done, so that a deep tree needs no deep recursion.
-/

namespace Cohesion.Java

/-- The kinds of nodes that open a scope of their own for local variables. -/
def scopeKinds : List String :=
  ["block", "switch_block", "lambda_expression", "class_body", "for_statement",
    "enhanced_for_statement", "catch_clause", "try_with_resources_statement"]

/-- Whether a node opens a scope of its own for local variables. -/
def opensScope (n : Node) : Bool :=
  scopeKinds.contains n.kind

/-- What a method body can see from outside: the source file, its static imports, and the enclosing
types with the innermost one first. -/
structure Surroundings where
  source : Source
  imports : Imports
  scopes : List TypeScope

namespace Surroundings

/-- The receiver of a call without an object: the innermost type that declares the method, else the
owner of a static import, else the innermost type. -/
def unqualifiedOwner (e : Surroundings) (method : String) : String :=
  match e.scopes.find? (·.methods.contains method) with
  | some scope => scope.name
  | none => (e.imports.ownerOf? method).getD (TypeScope.enclosing e.scopes)

/-- The type that a name stands for: that of a local variable, that of a field, or the type of that
name if it starts with an upper-case letter. -/
def namedType (e : Surroundings) (frames : Frames) (name : String) : String :=
  match frames.type? name <|> TypeScope.field? e.scopes name with
  | some type => type
  | none => if name.toList.head?.any isUpperCase then name else unresolvedReceiver

/-- The type of a field access, which is known for fields of the innermost type. -/
def accessedType (e : Surroundings) (access : Node) : String :=
  if (access.child? "object").any (·.kind = "this") then
    match access.child? "field", e.scopes with
    | some field, scope :: _ =>
      (lookUp? scope.fields (field.text e.source)).getD unresolvedReceiver
    | _, _ => unresolvedReceiver
  else unresolvedReceiver

/-- The type of the object of a call. -/
def receiverType (e : Surroundings) (frames : Frames) (object : Node) : String :=
  match object.kind with
  | "this" => TypeScope.enclosing e.scopes
  | "super" => TypeScope.parent e.scopes
  | "identifier" => e.namedType frames (object.text e.source)
  | "field_access" => e.accessedType object
  | _ => (expressionType? e.source object).getD unresolvedReceiver

/-- The call that a method invocation makes; without a name it makes none. -/
def call? (e : Surroundings) (frames : Frames) (invocation : Node) : Option CallSite :=
  (invocation.child? "name").map fun name =>
    let method := name.text e.source
    let receiver :=
      match invocation.child? "object" with
      | none => e.unqualifiedOwner method
      | some object => e.receiverType frames object
    ⟨method, receiver, e.source.lineAt name.label.start⟩

/-- The call that a node makes itself. -/
def ownCall (e : Surroundings) (frames : Frames) (n : Node) : List CallSite :=
  if n.kind = "method_invocation" then (e.call? frames n).toList else []

/-- The frames inside a node: a new one if the node opens a scope, with the variables that the node
declares itself. -/
def enter (e : Surroundings) (frames : Frames) (n : Node) : Frames :=
  Frames.declareAll (if opensScope n then frames.push else frames) (ownVariables e.source n)

/-- The frames after a node, without the one that the node opened. -/
def leave (frames : Frames) (n : Node) : Frames :=
  if opensScope n then frames.tail else frames

end Surroundings

open Surroundings

/-! ### By recursion on the tree -/

mutual

/-- The calls of a tree, and the local variables after it. -/
def callsOf (e : Surroundings) (frames : Frames) : Node → List CallSite × Frames
  | .mk label children =>
    let inside := e.enter frames (.mk label children)
    let (calls, after) := callsOfNamed e inside children
    (e.ownCall inside (.mk label children) ++ calls, leave after (.mk label children))

/-- The calls of the trees of a list that are no keywords, one tree after the other. -/
def callsOfNamed (e : Surroundings) (frames : Frames) : List Node → List CallSite × Frames
  | [] => ([], frames)
  | n :: ns =>
    if n.label.isNamed then
      let (calls, after) := callsOf e frames n
      let (further, last) := callsOfNamed e after ns
      (calls ++ further, last)
    else callsOfNamed e frames ns

end

/-! ### With a list of tasks -/

/-- What remains to be done: to walk a tree, or to close the innermost frame. -/
inductive Task where
  | walk (n : Node)
  | close

namespace Task

/-- A bound on the number of steps that a task takes. -/
def weight : Task → Nat
  | walk n => 2 * n.size
  | close => 1

/-- A bound on the number of steps that all tasks take. -/
def totalWeight (tasks : List Task) : Nat :=
  total (tasks.map weight)

/-- The tasks below a node: its children that are no keywords, and then the end of its scope. -/
def below (n : Node) : List Task :=
  n.namedChildren.map walk ++ (if opensScope n then [close] else [])

theorem totalWeight_append (xs ys : List Task) :
  totalWeight (xs ++ ys) = totalWeight xs + totalWeight ys
  := by
  simp [totalWeight, total_append]

theorem totalWeight_map_walk (ns : List Node) :
  totalWeight (ns.map walk) = 2 * Node.sizeOfAll ns
  := by
  induction ns with
  | nil => rfl
  | cons n ns ih =>
    rw [Node.sizeOfAll, Nat.mul_add, ← ih]
    simp [totalWeight, total, weight]

theorem totalWeight_below_lt (n : Node) :
  totalWeight (below n) < weight (walk n)
  := by
  have hlt := n.sizeOfAll_namedChildren_lt
  have hend : totalWeight (if opensScope n then [close] else []) ≤ 1 := by
    split <;> simp [totalWeight, total, weight]
  rw [below, totalWeight_append, totalWeight_map_walk, weight]
  omega

end Task

/-- The calls that are found by doing all tasks, after those of `found`, the latest of which comes
first; and the local variables in the end. -/
def runTasks (e : Surroundings) (found : List CallSite) (frames : Frames) :
    List Task → List CallSite × Frames
  | [] => (found.reverse, frames)
  | .close :: tasks => runTasks e found frames.pop tasks
  | .walk n :: tasks =>
    let inside := e.enter frames n
    runTasks e ((e.ownCall inside n).reverse ++ found) inside (Task.below n ++ tasks)
termination_by tasks => Task.totalWeight tasks
decreasing_by
  · simp [Task.totalWeight, total, Task.weight]
  · rw [Task.totalWeight_append]
    have := Task.totalWeight_below_lt n
    simp only [Task.totalWeight, List.map_cons, total] at *
    omega

/-- The calls of a method body under given local variables. -/
def collectCalls (e : Surroundings) (frames : Frames) (body : Node) : List CallSite :=
  (runTasks e [] frames [.walk body]).1

end Cohesion.Java
