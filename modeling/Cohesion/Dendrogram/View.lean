import Cohesion.Dendrogram

/-!
# The subtree at a node

`Dendrogram.view?` unfolds the numbered nodes of a dendrogram below one of them into a tree of its
own, in which every position holds the members, height and depth of its node.
-/

namespace Cohesion

/-- A subtree of a dendrogram. -/
inductive Dendrogram.View (S : Type) where
  | leaf (members : NameSet) (height : S) (depth : Nat)
  | join (members : NameSet) (height : S) (depth : Nat) (left right : View S)

namespace Dendrogram

variable {S : Type}

namespace View

/-- The classes of the leaves, those of the left subtree first. -/
def leaves : View S → List String
  | .leaf members _ _ => members.names
  | .join _ _ _ left right => left.leaves ++ right.leaves

/-- The number of nodes. -/
def size : View S → Nat
  | .leaf .. => 1
  | .join _ _ _ left right => 1 + left.size + right.size

end View

/-- The subtree at a node, if there is a node with this number. -/
def view? (t : Dendrogram S) (id : Nat) : Option (View S) :=
  if h : id < t.nodes.size then
    let n := t.nodes[id]
    match hc : t.nodes[id].children with
    | none => some (.leaf n.members n.height n.depth)
    | some (l, r) =>
      have := t.childrenFirst id h l r hc
      match t.view? l, t.view? r with
      | some left, some right => some (.join n.members n.height n.depth left right)
      | _, _ => none
  else none
termination_by id
decreasing_by all_goals omega

end Dendrogram

end Cohesion
