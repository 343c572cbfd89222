import Cohesion.Coupling
import Cohesion.Lists
import Cohesion.Merge

/-!
# Average-link clustering

`cluster` starts with every class of a coupling map alone and merges two blocks at a time until one
is left.  The score of two blocks is the mean weight of all pairs with one class in each, where an
absent pair weighs nothing, so a block that takes in unrelated classes moves away from all others.
Of all pairs of blocks the one with the highest score is merged, on a tie the one with more
classes, and then the one with the smaller key.  The union takes the place of the left block, hence
the blocks stay ordered by their smallest members.
-/

namespace Cohesion

variable {S : Type} [Score S]

/-- The mean weight of all pairs of a class on the left and a class on the right, and nothing if one
side is empty. -/
def averageLink (m : CouplingMap S) (left right : NameSet) : S :=
  let count := left.size * right.size
  if count = 0 then Score.zero
  else Score.mean (Score.sum (left.names.flatMap fun a => right.names.map (m.get a))) count

namespace Merge

/-- Which of two possible merges comes first: `gt` if the first one does. -/
def preference (a b : Merge S) : Ordering :=
  (Score.compare a.score b.score).then
    ((compare a.size b.size).then (compare b.key a.key))

/-- Whether one possible merge is to be made rather than another. -/
def beats (a b : Merge S) : Bool :=
  a.preference b = .gt

/-- The merges of every two blocks of a partition. -/
def candidates (m : CouplingMap S) (blocks : List NameSet) : List (Merge S) :=
  (pairsOf blocks).map fun (left, right) => ⟨left, right, averageLink m left right⟩

/-- The merge that no later one of the list beats. -/
def best? : List (Merge S) → Option (Merge S)
  | [] => none
  | m :: ms => some (ms.foldl (fun best m => if m.beats best then m else best) m)

/-- The right block taken away, and the left one replaced by the union. -/
def apply (m : Merge S) (blocks : List NameSet) : List NameSet :=
  (blocks.erase m.right).map fun b => if b = m.left then m.merged else b

end Merge

/-- A merge sequence and the partition in which it ends. -/
structure Clustering (S : Type) where
  clusters : List NameSet
  merges : List (Merge S)
  deriving DecidableEq

/-- At most so many best merges in a row, and the blocks that are left. -/
def agglomerate (m : CouplingMap S) : Nat → List NameSet → List (Merge S) × List NameSet
  | 0, blocks => ([], blocks)
  | steps + 1, blocks =>
    match Merge.best? (Merge.candidates m blocks) with
    | none => ([], blocks)
    | some merge =>
      let (merges, last) := agglomerate m steps (merge.apply blocks)
      (merge :: merges, last)

/-- The clustering of all classes of a coupling map.  A partition into `n` blocks admits `n - 1`
merges. -/
def cluster (m : CouplingMap S) : Clustering S :=
  let blocks := singletons m.classes
  let (merges, last) := agglomerate m (blocks.length - 1) blocks
  ⟨NameSet.sortBySize last, merges⟩

end Cohesion
