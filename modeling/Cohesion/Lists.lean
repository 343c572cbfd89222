/-!
# Pairs and totals

`pairsOf xs` lists every two entries of `xs` at different positions once, the earlier entry first, and
`total` adds up a list of counts.
-/

namespace Cohesion

/-- All pairs of entries of a list, each with the earlier entry first. -/
def pairsOf {α : Type} : List α → List (α × α)
  | [] => []
  | x :: xs => xs.map (x, ·) ++ pairsOf xs

/-- The total of some counts. -/
def total : List Nat → Nat
  | [] => 0
  | n :: ns => n + total ns

theorem total_append (ms ns : List Nat) :
  total (ms ++ ns) = total ms + total ns
  := by
  induction ms with
  | nil => simp [total]
  | cons m ms ih => simp [total, ih, Nat.add_assoc]

end Cohesion
