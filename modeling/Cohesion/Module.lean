import Cohesion.Coupling
import Cohesion.Dendrogram
import Cohesion.Lists

/-!
# Modules

A `Cut` of a dendrogram is a point and a direction.  The modules at a cut are found in three steps:
take the topmost nodes whose height passes, keep those whose classes are coupled more strongly than
the point on average, and of these keep half as many as there are classes, the best first.
-/

namespace Cohesion

/-- Which heights pass a cut: those at or above the point, or those at or below it. -/
inductive CutMode where
  | similarity
  | distance
  deriving DecidableEq

/-- The name of a direction. -/
def CutMode.text : CutMode → String
  | .similarity => "similarity"
  | .distance => "distance"

/-- The direction of a name. -/
def CutMode.ofText? (s : String) : Option CutMode :=
  [similarity, distance].find? (·.text = s)

/-- Where a dendrogram is cut. -/
structure Cut (S : Type) where
  point : S
  mode : CutMode

/-- A cohesive group of classes, and the mean weight of its pairs. -/
structure Module (S : Type) where
  classes : NameSet
  cohesion : S
  deriving DecidableEq

variable {S : Type} [Score S]

/-- Whether a node of this height stays in one piece. -/
def Cut.passes (c : Cut S) (height : S) : Bool :=
  match c.mode with
  | .similarity => Score.le c.point height
  | .distance => Score.le height c.point

/-- The mean weight over all pairs of a list of classes, and nothing for fewer than two. -/
def meanWeight (m : CouplingMap S) (names : List String) : S :=
  let weights := (pairsOf names).map fun (a, b) => m.get a b
  if weights.length = 0 then Score.zero
  else Score.mean (weights.foldl Score.add Score.zero) weights.length

/-- The number of modules that are reported at most for so many classes. -/
def maxModules (classCount : Nat) : Nat :=
  max (classCount / 2) 1

namespace Module

/-- The better of two modules comes first: the more cohesive one, the larger one, the one with the
smaller key. -/
def comesBefore (a b : Module S) : Bool :=
  ((Score.compare b.cohesion a.cohesion).then
    ((compare b.classes.size a.classes.size).then (compare a.classes.key b.classes.key))).isLE

end Module

/-- The module of a set of classes if it is more cohesive than the point. -/
def moduleOf? (m : CouplingMap S) (point : S) (classes : NameSet) : Option (Module S) :=
  let cohesion := meanWeight m classes.names
  if Score.lt point cohesion then some ⟨classes, cohesion⟩ else none

/-- The modules of a dendrogram at a cut, the best first. -/
def Dendrogram.modules (t : Dendrogram S) (m : CouplingMap S) (c : Cut S) : List (Module S) :=
  match t.root? with
  | none => []
  | some root =>
    let found := (t.topmost c.passes root).filterMap fun id => moduleOf? m c.point (t.members id)
    (found.mergeSort Module.comesBefore).take (maxModules t.classCount)

/-- The modules at a cut of the dendrogram that a merge sequence encodes. -/
def modulesOfMerges (merges : List (Merge S)) (m : CouplingMap S) (c : Cut S) :
    Except (Nat × MergeFault) (List (Module S)) :=
  match Dendrogram.ofMerges merges with
  | .error fault => .error fault
  | .ok t => .ok (t.modules m c)

end Cohesion
