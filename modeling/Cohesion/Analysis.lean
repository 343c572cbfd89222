import Cohesion.Clustering
import Cohesion.Coupling.PairReport
import Cohesion.Coupling.Traffic
import Cohesion.Dendrogram.View
import Cohesion.Failure
import Cohesion.Module

/-!
# Analyses

An `Analysis` holds what is computed once from the facts of a project: the couplings, the clustering
and the dendrogram.  Every question is then answered from it without changing it.
-/

namespace Cohesion

/-- The couplings of a project, the merge sequence of its classes and the tree of that sequence. -/
structure Analysis where
  facts : ProjectFacts
  couplings : CouplingMap Float
  clustering : Clustering Float
  dendrogram : Dendrogram Float

/-- All pairs, and those that are worth drawing. -/
structure WeightsAnswer where
  totalCalls : Nat
  classes : List String
  pairs : List (CouplingRow Float)
  edges : List (CouplingRow Float)

/-- The partition after so many merges, and the whole sequence. -/
structure ClustersAnswer where
  classCount : Nat
  steps : Nat
  clusters : List NameSet
  merges : List (Merge Float)

/-- The whole tree. -/
structure DendrogramAnswer where
  classCount : Nat
  leaves : List String
  root : Option (Dendrogram.View Float)

/-- The modules at a cut. -/
structure ModulesAnswer where
  point : Float
  mode : CutMode
  classCount : Nat
  maxModules : Nat
  modules : List (Module Float)

/-- The failure of a merge sequence at one of its steps. -/
def Failure.ofMergeFault : Nat × MergeFault → Failure
  | (step, fault) => .inconsistentMerges step fault.message

namespace Analysis

/-- The analysis of the facts of a project. -/
def ofFacts (facts : ProjectFacts) : Except Failure Analysis :=
  let couplings := CouplingMap.ofFacts facts.classes
  let clustering := cluster couplings
  match Dendrogram.ofMerges clustering.merges with
  | .error fault => .error (.ofMergeFault fault)
  | .ok dendrogram => .ok ⟨facts, couplings, clustering, dendrogram⟩

/-- The couplings, and the edges above so many percent of the heaviest one. -/
def weights (a : Analysis) (percent : Float) : Except Failure WeightsAnswer :=
  if percent.isFinite && 0.0 ≤ percent then
    .ok ⟨a.couplings.totalCalls, a.couplings.classes.names, a.couplings.rows,
      a.couplings.edges percent⟩
  else .error (.badPercent percent)

/-- The report on two classes. -/
def pair (a : Analysis) (first second : String) : Except Failure (PairReport Float) :=
  pairReport a.facts.classes a.couplings.totalCalls first second

/-- The partition after `steps` merges, or after all of them if no number is given or there are
fewer. -/
def clusters (a : Analysis) (steps : Option Nat) : ClustersAnswer :=
  let merges := a.clustering.merges
  let steps := min (steps.getD merges.length) merges.length
  let classes := a.couplings.classes
  let clusters :=
    if steps = merges.length then a.clustering.clusters else replay classes merges steps
  ⟨classes.size, steps, clusters, merges⟩

/-- The dendrogram from its root. -/
def tree (a : Analysis) : DendrogramAnswer :=
  let t := a.dendrogram
  match t.root? with
  | none => ⟨t.classCount, [], none⟩
  | some root => ⟨t.classCount, t.leaves root, t.view? root⟩

/-- The modules at a cut. -/
def modules (a : Analysis) (point : Float) (mode : CutMode) : Except Failure ModulesAnswer :=
  if point.isFinite then
    let classCount := a.dendrogram.classCount
    .ok ⟨point, mode, classCount, maxModules classCount,
      a.dendrogram.modules a.couplings ⟨point, mode⟩⟩
  else .error (.badPoint point)

end Analysis

end Cohesion
