import Cohesion.Coupling
import Cohesion.Facts
import Cohesion.Failure

/-!
# The report on one pair of classes

`pairReport` looks up two classes by name without regard to the case of ASCII letters, and reports
the calls between them straight from the facts, as a share of a given total.
-/

namespace Cohesion

/-- The calls between two classes, in each direction. -/
structure PairReport (S : Type) where
  classA : String
  classB : String
  callsAToB : Nat
  callsBToA : Nat
  totalCalls : Nat
  share : S
  deriving DecidableEq

/-- Whether two names differ at most in the case of ASCII letters. -/
def sameIgnoringCase (a b : String) : Bool :=
  a.toList.map Char.toLower == b.toList.map Char.toLower

/-- The first class of a list that a name names, upper and lower case being the same. -/
def ClassFacts.find? (facts : List ClassFacts) (name : String) : Option ClassFacts :=
  (firstByName facts).find? fun c => sameIgnoringCase c.name name

/-- The report on the classes that `a` and `b` name. -/
def pairReport {S : Type} [Score S] (facts : List ClassFacts) (totalCalls : Nat) (a b : String) :
    Except Failure (PairReport S) :=
  match ClassFacts.find? facts a with
  | none => .error (.classNotFound a)
  | some classA =>
    match ClassFacts.find? facts b with
    | none => .error (.classNotFound b)
    | some classB =>
      let aToB := classA.callsTo classB.name
      let bToA := classB.callsTo classA.name
      .ok ⟨classA.name, classB.name, aToB, bToA, totalCalls, Score.share (aToB + bToA) totalCalls⟩

end Cohesion
