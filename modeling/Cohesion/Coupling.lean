import Cohesion.NamePair
import Cohesion.NameSet
import Cohesion.Score

/-!
# Couplings

A `CouplingMap` holds, for pairs of class names, how many calls go between the two classes and the
weight of the pair, together with the number of all such calls.  It is a finite map with one order
of its entries, so two maps with equal look-ups are equal.  A pair without an entry weighs nothing.
`CouplingMap.edges` lists the pairs heavier than a given part of the heaviest one.
-/

namespace Cohesion

/-- The calls between two classes, in both directions together, and their weight. -/
structure Coupling (S : Type) where
  calls : Nat
  weight : S
  deriving DecidableEq

/-- The couplings of pairs of classes, and the number of all calls that go between classes. -/
structure CouplingMap (S : Type) where
  pairs : Std.ExtTreeMap NamePair (Coupling S)
  totalCalls : Nat

/-- One entry of a coupling map. -/
structure CouplingRow (S : Type) where
  pair : NamePair
  calls : Nat
  weight : S
  deriving DecidableEq

namespace CouplingMap

variable {S : Type}

/-- The map without entries. -/
def empty : CouplingMap S :=
  ⟨∅, 0⟩

/-- The map of a list of entries; of several entries for one pair the last counts. -/
def ofEntries (entries : List (NamePair × Coupling S)) (totalCalls : Nat) : CouplingMap S :=
  ⟨entries.foldl (fun pairs e => pairs.insert e.1 e.2) ∅, totalCalls⟩

/-- The map of plain weights, whose calls are not known and count as none. -/
def ofWeights (triples : List (String × String × S)) : CouplingMap S :=
  ofEntries (triples.map fun (a, b, weight) => (NamePair.of a b, ⟨0, weight⟩)) 0

/-- The coupling of two classes, named in either order. -/
def entry? (m : CouplingMap S) (a b : String) : Option (Coupling S) :=
  m.pairs[NamePair.of a b]?

/-- The weight of two classes, named in either order; an absent pair weighs nothing. -/
def get [Score S] (m : CouplingMap S) (a b : String) : S :=
  match m.entry? a b with
  | some c => c.weight
  | none => Score.zero

/-- The number of pairs. -/
def size (m : CouplingMap S) : Nat :=
  m.pairs.size

/-- Every entry, in the order of the pairs. -/
def rows (m : CouplingMap S) : List (CouplingRow S) :=
  m.pairs.toList.map fun (p, c) => ⟨p, c.calls, c.weight⟩

/-- The classes that occur in some pair. -/
def classes (m : CouplingMap S) : NameSet :=
  NameSet.ofList (m.rows.flatMap fun r => [r.pair.first, r.pair.second])

theorem get_comm [Score S] (m : CouplingMap S) (a b : String) :
  m.get a b = m.get b a
  := by
  rw [get, get, entry?, entry?, NamePair.of_comm]

/-! ### Edges -/

variable [Score S]

/-- The weight of the heaviest pair, at least zero. -/
def maxWeight (m : CouplingMap S) : S :=
  (m.rows.map (·.weight)).foldl Score.max Score.zero

/-- Heavier rows come first, and rows of one weight in the order of their pairs. -/
def heavierFirst (r s : CouplingRow S) : Bool :=
  match Score.compare s.weight r.weight with
  | .lt => true
  | .gt => false
  | .eq => (compare r.pair s.pair).isLE

/-- The pairs worth drawing as the edges of a graph: those that weigh anything, and more than
`percent` percent of the heaviest one.  The heaviest edge comes first. -/
def edges (m : CouplingMap S) (percent : S) : List (CouplingRow S) :=
  let threshold := Score.percentOf percent m.maxWeight
  (m.rows.filter fun r => Score.lt Score.zero r.weight && Score.lt threshold r.weight).mergeSort
    heavierFirst

end CouplingMap

end Cohesion
