import Cohesion.Lists
import Cohesion.Proofs.NameSet
import Mathlib.Algebra.BigOperators.Group.List.Basic
import Mathlib.Algebra.Order.Field.Basic
import Mathlib.Algebra.Order.Ring.Rat
import Mathlib.Data.List.Perm.Basic
import Mathlib.Data.List.ProdSigma
import Mathlib.Tactic.Ring

/-!
# Sums over pairs

`pairSum f ps` is the sum of `f` over a list of pairs.  If `f` is symmetric, the sum over all pairs of
a list does not depend on its order, and the sum over the pairs of a union of disjoint sets is that
over the pairs of each of them and over the pairs between them: `pairSum_pairsOf_union`.  The sum of
the amounts by which the values exceed `k` tells whether their mean does: `lt_mean_iff`.
-/

namespace Cohesion

variable {α : Type} {f : α → α → ℚ}

/-- The sum of the values of `f` at some pairs. -/
def pairSum (f : α → α → ℚ) (ps : List (α × α)) : ℚ :=
  (ps.map fun p => f p.1 p.2).sum

@[simp]
theorem pairSum_nil (f : α → α → ℚ) :
  pairSum f [] = 0
  := rfl

/-- Sums over two lists of pairs add up. -/
theorem pairSum_append (f : α → α → ℚ) (ps qs : List (α × α)) :
  pairSum f (ps ++ qs) = pairSum f ps + pairSum f qs
  := by
  rw [pairSum, List.map_append, List.sum_append]
  rfl

/-- The order of the pairs does not change their sum. -/
theorem pairSum_perm (f : α → α → ℚ) {ps qs : List (α × α)} (h : ps.Perm qs) :
  pairSum f ps = pairSum f qs
  := (h.map _).sum_eq

/-- The order in which the two entries of the pairs stand does not matter. -/
theorem pairSum_map_swap (hf : ∀ x y, f x y = f y x) (ps : List (α × α)) :
  pairSum f (ps.map Prod.swap) = pairSum f ps
  := by
  rw [pairSum, List.map_map]
  congr 2
  funext p
  apply hf

/-! ### Pairs of two lists -/

/-- The pairs of a product turned round are those of the product the other way. -/
theorem product_swap_perm (xs ys : List α) :
  ((xs ×ˢ ys).map Prod.swap).Perm (ys ×ˢ xs)
  := by
  induction xs with
  | nil =>
    rw [List.nil_product, List.product_nil]
    apply List.Perm.nil
  | cons x xs ih =>
    rw [List.product_cons, List.map_append, List.map_map]
    apply (ih.append_left _).trans
    apply List.map_append_flatMap_perm ys (fun y => (y, x)) (fun y => xs.map (y, ·))

/-- A symmetric sum over a product is that over the product the other way. -/
theorem pairSum_product_comm (hf : ∀ x y, f x y = f y x) (xs ys : List α) :
  pairSum f (xs ×ˢ ys) = pairSum f (ys ×ˢ xs)
  := by
  rw [← pairSum_map_swap hf (xs ×ˢ ys)]
  apply pairSum_perm f (product_swap_perm xs ys)

/-- A sum over a product splits where its first list does. -/
theorem pairSum_product_append (f : α → α → ℚ) (xs ys zs : List α) :
  pairSum f ((xs ++ ys) ×ˢ zs) = pairSum f (xs ×ˢ zs) + pairSum f (ys ×ˢ zs)
  := by
  rw [← pairSum_append]
  congr 1
  apply List.flatMap_append

theorem pairSum_product_perm (f : α → α → ℚ) {xs ys : List α} (h : xs.Perm ys) (zs : List α) :
  pairSum f (xs ×ˢ zs) = pairSum f (ys ×ˢ zs)
  := pairSum_perm f (h.product_right zs)

/-! ### Pairs of one list -/

/-- The pairs of two lists together are those of each of them and those of an entry of either. -/
theorem pairsOf_append_perm (xs ys : List α) :
  (pairsOf (xs ++ ys)).Perm (pairsOf xs ++ (xs ×ˢ ys ++ pairsOf ys))
  := by
  induction xs with
  | nil => apply List.Perm.refl
  | cons x xs ih =>
    rw [List.cons_append, pairsOf, pairsOf, List.map_append, List.product_cons]
    simp only [List.append_assoc]
    apply List.Perm.append_left
    apply (ih.append_left _).trans
    apply List.perm_append_comm_assoc

/-- The pairs of two lists together are those within each and those across. -/
theorem pairSum_pairsOf_append (f : α → α → ℚ) (xs ys : List α) :
  pairSum f (pairsOf (xs ++ ys))
    = pairSum f (pairsOf xs) + pairSum f (xs ×ˢ ys) + pairSum f (pairsOf ys)
  := by
  rw [pairSum_perm f (pairsOf_append_perm xs ys), pairSum_append, pairSum_append, add_assoc]

/-- The sum over all pairs does not depend on the order of the list. -/
theorem pairSum_pairsOf_perm (hf : ∀ x y, f x y = f y x) {xs ys : List α} (h : xs.Perm ys) :
  pairSum f (pairsOf xs) = pairSum f (pairsOf ys)
  := by
  induction h with
  | nil => rfl
  | cons x h ih =>
    rw [pairsOf, pairsOf, pairSum_append, pairSum_append, ih, pairSum_perm f (h.map _)]
  | swap x y xs =>
    simp only [pairSum, pairsOf, List.map_cons, List.map_append, List.sum_append, List.sum_cons]
    rw [hf y x]
    ring
  | trans _ _ ih ih' => rw [ih, ih']

/-! ### Pairs of names -/

section

variable {f : String → String → ℚ} {s t : NameSet}

/-- A sum over a union of disjoint sets splits into those over the two. -/
theorem pairSum_product_union (f : String → String → ℚ) (h : s.Disjoint t) (ys : List String) :
  pairSum f ((s ∪ t).names ×ˢ ys) = pairSum f (s.names ×ˢ ys) + pairSum f (t.names ×ˢ ys)
  := by
  rw [← pairSum_product_append]
  symm
  apply pairSum_product_perm f (NameSet.names_union_perm h)

/-- The pairs of a union of disjoint sets are those within each and those across. -/
theorem pairSum_pairsOf_union (hf : ∀ x y, f x y = f y x) (h : s.Disjoint t) :
  pairSum f (pairsOf (s ∪ t).names)
    = pairSum f (pairsOf s.names) + pairSum f (s.names ×ˢ t.names) + pairSum f (pairsOf t.names)
  := by
  rw [← pairSum_pairsOf_append]
  symm
  apply pairSum_pairsOf_perm hf (NameSet.names_union_perm h)

end

/-! ### Means -/

/-- The sum of what exceeds `k` is the sum less `k` for every pair. -/
theorem pairSum_sub (f : α → α → ℚ) (k : ℚ) (ps : List (α × α)) :
  pairSum (fun x y => f x y - k) ps = pairSum f ps - k * ps.length
  := by
  induction ps with
  | nil => simp
  | cons p ps ih =>
    simp only [pairSum, List.map_cons, List.sum_cons, List.length_cons, Nat.cast_succ] at ih ⊢
    rw [ih]
    ring

/-- The mean of some values is above `k` when they exceed it in sum. -/
theorem lt_mean_iff {ps : List (α × α)} (hps : ps ≠ []) (k : ℚ) :
  k < pairSum f ps / ps.length ↔ 0 < pairSum (fun x y => f x y - k) ps
  := by
  have hpos : (0 : ℚ) < ps.length := Nat.cast_pos.mpr (List.length_pos_iff.mpr hps)
  rw [lt_div_iff₀ hpos, pairSum_sub, sub_pos]

/-- A mean is at most a bound exactly when the differences from it sum up to at most zero. -/
theorem mean_le_iff {ps : List (α × α)} (hps : ps ≠ []) (k : ℚ) :
  pairSum f ps / ps.length ≤ k ↔ pairSum (fun x y => f x y - k) ps ≤ 0
  := by
  rw [← not_lt, lt_mean_iff hps, not_lt]

/-- A mean is at least a bound exactly when the differences from it sum up to at least zero. -/
theorem le_mean_iff {ps : List (α × α)} (hps : ps ≠ []) (k : ℚ) :
  k ≤ pairSum f ps / ps.length ↔ 0 ≤ pairSum (fun x y => f x y - k) ps
  := by
  have hpos : (0 : ℚ) < ps.length := Nat.cast_pos.mpr (List.length_pos_iff.mpr hps)
  rw [le_div_iff₀ hpos, pairSum_sub, sub_nonneg]

end Cohesion
