import Cohesion.Coupling
import Cohesion.Facts
import Cohesion.Lists

/-!
# The traffic between classes

`CouplingMap.ofFacts` counts, for every two classes of a list of facts, the calls that one makes on
the other, and weighs each pair by its share of all such calls.  The calls of each class are counted
once by their receivers, in its `CallTally`, and for every pair two numbers are looked up there, which
are what `ClassFacts.callsTo` counts for one receiver: `ClassFacts.count_tally`.  Every two different
classes have an entry, also those without a call between them.  Calls of a class to itself and calls on
receivers that are no class of the list count nowhere, and of several classes of one name the first
counts.
-/

namespace Cohesion

/-- A class and the numbers of its calls, by receiver. -/
structure CallTally where
  caller : String
  counts : Std.ExtTreeMap String Nat

namespace CallTally

/-- The numbers of calls with one call more. -/
def add (counts : Std.ExtTreeMap String Nat) (s : CallSite) : Std.ExtTreeMap String Nat :=
  counts.insert s.receiver (counts.getD s.receiver 0 + 1)

/-- The number of calls on a receiver. -/
def count (t : CallTally) (receiver : String) : Nat :=
  t.counts.getD receiver 0

/-- The number of calls between two classes, in both directions together. -/
def traffic (t u : CallTally) : Nat :=
  t.count u.caller + u.count t.caller

/-- Of calls that are added one after the other, each counts for its receiver. -/
theorem getD_foldl_add (calls : List CallSite) (counts : Std.ExtTreeMap String Nat)
    (receiver : String) :
  (calls.foldl add counts).getD receiver 0
    = counts.getD receiver 0 + calls.countP (·.receiver = receiver)
  := by
  induction calls generalizing counts with
  | nil => rfl
  | cons s calls ih =>
    rw [List.foldl_cons, ih, add, Std.ExtTreeMap.getD_insert, List.countP_cons]
    by_cases h : s.receiver = receiver
    · simp only [h, Std.ReflCmp.compare_self, decide_true, if_true]
      omega
    · simp only [h, Std.LawfulEqCmp.compare_eq_iff_eq, decide_false, if_false]
      rfl

end CallTally

namespace ClassFacts

/-- The calls of a class, counted by receiver. -/
def tally (c : ClassFacts) : CallTally :=
  ⟨c.name, c.calls.foldl CallTally.add ∅⟩

/-- A tally holds the number of calls on every receiver. -/
theorem count_tally (c : ClassFacts) (receiver : String) :
  c.tally.count receiver = c.callsTo receiver
  := by
  rw [CallTally.count, tally, CallTally.getD_foldl_add, Std.ExtTreeMap.getD_empty, Nat.zero_add,
    callsTo]

/-- The traffic of every two classes of a list, of which the first of each name counts. -/
def trafficRows (facts : List ClassFacts) : List (NamePair × Nat) :=
  (pairsOf ((firstByName facts).map tally)).map fun (t, u) =>
    (NamePair.of t.caller u.caller, t.traffic u)

end ClassFacts

open ClassFacts

/-- The couplings of a list of classes. -/
def CouplingMap.ofFacts {S : Type} [Score S] (facts : List ClassFacts) : CouplingMap S :=
  let counts := trafficRows facts
  let totalCalls := total (counts.map (·.2))
  ofEntries (counts.map fun (pair, calls) => (pair, ⟨calls, Score.share calls totalCalls⟩)) totalCalls

end Cohesion
