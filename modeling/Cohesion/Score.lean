/-!
# Scores

Couplings and the heights of a dendrogram are scores.  Everything that clusters, replays and cuts is
written over the operations of `Score` alone, so that one definition serves binary floating point,
in which the program computes, and exact fractions, in which its laws hold without rounding.
The comparison `Score.compare` counts two scores as equal if neither is below the other; a number
that is no number is therefore equal to every score.
-/

namespace Cohesion

/-- The operations on the numbers in which couplings are measured. -/
class Score (S : Type) where
  /-- No coupling. -/
  zero : S
  /-- Where the sum over a link starts: the neutral element of the addition. -/
  emptySum : S
  add : S → S → S
  /-- A sum divided by the number of its terms. -/
  mean : S → Nat → S
  /-- A count as a part of a positive total. -/
  ratio : Nat → Nat → S
  /-- So many percent of an amount. -/
  percentOf : S → S → S
  lt : S → S → Bool
  le : S → S → Bool

namespace Score

/-- Floating point starts a link at negative zero, which no addition notices. -/
instance : Score Float where
  zero := 0.0
  emptySum := -0.0
  add := (· + ·)
  mean s n := s / Float.ofNat n
  ratio part total := Float.ofNat part / Float.ofNat total
  percentOf p s := p / 100.0 * s
  lt a b := decide (a < b)
  le a b := decide (a ≤ b)

instance : Score Rat where
  zero := 0
  emptySum := 0
  add := (· + ·)
  mean s n := s / n
  ratio part total := (part : Rat) / total
  percentOf p s := p / 100 * s
  lt a b := decide (a < b)
  le a b := decide (a ≤ b)

variable {S : Type} [Score S]

/-- The order of two scores, in which scores that cannot be compared tie. -/
def compare (a b : S) : Ordering :=
  if lt a b then .lt else if lt b a then .gt else .eq

/-- The sum over a link, from the first term to the last. -/
def sum (scores : List S) : S :=
  scores.foldl add emptySum

/-- The greater of two scores, and the second of two equal ones; one that is no number never wins. -/
def max (a b : S) : S :=
  if le a b then b else a

/-- A count as a part of a total, and no coupling if the total is nothing. -/
def share (part total : Nat) : S :=
  if total = 0 then zero else ratio part total

end Score

end Cohesion
