import Cohesion.NameSet
import Cohesion.Score

/-!
# Merges

A `Merge` joins two sets of classes, at the score that they had for each other.  A sequence of
merges encodes a dendrogram.  `replay` reads it forwards over the singletons of a set of classes and
gives the partition after some of its steps; it does not ask whether the sequence makes sense.
-/

namespace Cohesion

/-- Two sets of classes that become one, and the score at which they do. -/
structure Merge (S : Type) where
  left : NameSet
  right : NameSet
  score : S
  deriving DecidableEq

namespace Merge

variable {S : Type}

/-- The set that a merge makes of its two sides. -/
def merged (m : Merge S) : NameSet :=
  m.left ∪ m.right

/-- The number of classes on both sides. -/
def size (m : Merge S) : Nat :=
  m.left.size + m.right.size

/-- The keys of both sides with a bar between them. -/
def key (m : Merge S) : String :=
  m.left.key ++ "|" ++ m.right.key

end Merge

/-- The finest partition of a set of classes. -/
def singletons (classes : NameSet) : List NameSet :=
  classes.names.map NameSet.singleton

/-- Both sides of a merge replaced by their union, which becomes the last block. -/
def replayStep {S : Type} (blocks : List NameSet) (m : Merge S) : List NameSet :=
  blocks.filter (fun b => b ≠ m.left ∧ b ≠ m.right) ++ [m.merged]

/-- The partition of `classes` after the first `steps` merges, or after all if there are fewer. -/
def replay {S : Type} (classes : NameSet) (merges : List (Merge S)) (steps : Nat) :
    List NameSet :=
  NameSet.sortBySize ((merges.take steps).foldl replayStep (singletons classes))

end Cohesion
