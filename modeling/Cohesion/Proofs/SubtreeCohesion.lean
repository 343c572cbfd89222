import Cohesion.Proofs.CutPoints
import Mathlib.Algebra.Order.BigOperators.Group.List
import Mathlib.Data.Nat.Choose.Cast

/-!
# The cohesion of a subtree

Every pair of classes below a node comes together at exactly one of the joins below it, and the
height of this join is the mean weight of the pairs that come together there.  So in the tree of a
clustering without rounding the weights of all pairs of a subtree are in sum the heights of its
joins, each counted once for every pair: `Dendrogram.excess_eq_sum`.  As no join of a subtree is
lower than its top, a subtree that passes a cut by similarity misses the cohesion for a module
exactly if all its joins are as high as the point.
-/

namespace Cohesion

variable {m : CouplingMap ℚ} {k : ℚ}

/-- The weights of all pairs of some classes are in sum their mean, once for every pair. -/
theorem choose_two_mul_meanWeight (m : CouplingMap ℚ) (names : List String) :
  (names.length : ℚ) * (names.length - 1) / 2 * meanWeight m names = pairSum m.get (pairsOf names)
  := by
  rw [← Nat.cast_choose_two, ← length_pairsOf, meanWeight_eq]
  by_cases hpairs : pairsOf names = []
  · rw [hpairs, pairSum_nil, zero_div, mul_zero]
  · apply mul_div_cancel₀
    apply Nat.cast_ne_zero.mpr
    apply mt List.eq_nil_of_length_eq_zero hpairs

namespace Dendrogram

/-! ### The joins of a subtree -/

section

variable {S : Type} {t : Dendrogram S} {id l r u : Nat}

/-- The joins of the subtree at a node, each one before those below it. -/
def joinsBelow (t : Dendrogram S) (id : Nat) : List Nat :=
  match h : t.children id with
  | none => []
  | some (l, r) =>
    have := lt_of_children h
    id :: (t.joinsBelow l ++ t.joinsBelow r)
termination_by id
decreasing_by all_goals omega

theorem joinsBelow_of_children_eq_none (h : t.children id = none) :
  t.joinsBelow id = []
  := by
  rw [joinsBelow]
  split
  · rfl
  · rename_i hsome
    rw [h] at hsome
    cases hsome

/-- The joins below an inner node are the node itself and those below its children. -/
theorem joinsBelow_of_children (h : t.children id = some (l, r)) :
  t.joinsBelow id = id :: (t.joinsBelow l ++ t.joinsBelow r)
  := by
  rw [joinsBelow]
  split
  · rename_i hnone
    rw [h] at hnone
    cases hnone
  · rename_i hsome
    rw [h] at hsome
    cases hsome
    rfl

/-- The joins below a node are the inner nodes below it. -/
theorem mem_joinsBelow :
  u ∈ t.joinsBelow id ↔ t.Below u id ∧ t.children u ≠ none
  := by
  induction id using t.induction_on with
  | leaf id h =>
    rw [joinsBelow_of_children_eq_none h, below_iff_of_children_eq_none h]
    constructor
    · intro hu
      apply absurd hu List.not_mem_nil
    · rintro ⟨rfl, hu⟩
      apply absurd h hu
  | join id l r h ihl ihr =>
    rw [joinsBelow_of_children h, List.mem_cons, List.mem_append, ihl, ihr,
      below_iff_of_children h, ← or_and_right, or_and_right (a := u = id)]
    apply or_congr_left
    symm
    apply and_iff_left_of_imp
    rintro rfl
    apply (isChild_left h).children_ne_none

/-- No join below a node is listed twice. -/
theorem IsSound.nodup_joinsBelow [Score S] (ht : t.IsSound) (id : Nat) :
  (t.joinsBelow id).Nodup
  := by
  induction id using t.induction_on with
  | leaf id h =>
    rw [joinsBelow_of_children_eq_none h]
    apply List.nodup_nil
  | join id l r h ihl ihr =>
    obtain ⟨hl, hr⟩ := lt_of_children h
    rw [joinsBelow_of_children h]
    apply List.nodup_cons.mpr
    constructor
    · intro hid
      rcases List.mem_append.mp hid with hid | hid
      · apply absurd hl (not_lt_of_ge (mem_joinsBelow.mp hid).1.le)
      · apply absurd hr (not_lt_of_ge (mem_joinsBelow.mp hid).1.le)
    · apply ihl.append ihr
      intro u hul hur
      apply ht.not_below_right h (mem_joinsBelow.mp hul).1 (mem_joinsBelow.mp hur).1

/-- The number of pairs of classes that come together at a node: a member of its left child with a
member of its right child. -/
def pairCount (t : Dendrogram S) (id : Nat) : Nat :=
  match t.children id with
  | none => 0
  | some (l, r) => (t.members l).size * (t.members r).size

/-- A node joins as many pairs of classes as the product of its children's sizes. -/
theorem pairCount_of_children (h : t.children id = some (l, r)) :
  t.pairCount id = (t.members l).size * (t.members r).size
  := by
  rw [pairCount, h]

/-- Every inner node joins some pair of classes. -/
theorem IsSound.pairCount_pos [Score S] (ht : t.IsSound) (h : t.children id ≠ none) :
  0 < t.pairCount id
  := by
  obtain ⟨⟨l, r⟩, hchildren⟩ := Option.ne_none_iff_exists'.mp h
  obtain ⟨-, hl, hr⟩ := ht.size_of_children hchildren
  rw [pairCount_of_children hchildren]
  apply Nat.mul_pos hl hr

end

/-! ### The weights of a subtree -/

variable {t : Dendrogram ℚ} {id l r top : Nat}

/-- The weights of the pairs that come together at a join exceed `k` in sum as the height of the join
does, once for every pair. -/
theorem pairSum_between (h : ofMerges (cluster m).merges = .ok t)
    (hchildren : t.children id = some (l, r)) (k : ℚ) :
  pairSum (m.excess k) ((t.members l).names ×ˢ (t.members r).names)
    = t.pairCount id * (t.height id - k)
  := by
  have ht := isSound_ofMerges h
  have hcount : ((t.members l).names ×ˢ (t.members r).names).length = t.pairCount id := by
    rw [List.length_product, pairCount_of_children hchildren]
    rfl
  have hpos : 0 < t.pairCount id := ht.pairCount_pos (isChild_left hchildren).children_ne_none
  have hsub : pairSum (m.excess k) ((t.members l).names ×ˢ (t.members r).names)
      = pairSum m.get ((t.members l).names ×ˢ (t.members r).names) - k * t.pairCount id := by
    rw [← hcount]
    apply pairSum_sub
  rw [hsub, height_eq_averageLink h hchildren, averageLink_eq, hcount, mul_sub,
    mul_div_cancel₀ _ (Nat.cast_ne_zero.mpr hpos.ne'), mul_comm k]

/-- The weights of all pairs of a subtree exceed `k` in sum as the heights of its joins do, each one
counted once for every pair that comes together there. -/
theorem excess_eq_sum (h : ofMerges (cluster m).merges = .ok t) (k : ℚ) (id : Nat) :
  t.excess m k id = ((t.joinsBelow id).map fun u => t.pairCount u * (t.height u - k)).sum
  := by
  have ht := isSound_ofMerges h
  induction id using t.induction_on with
  | leaf id hchildren =>
    rw [ht.excess_of_children_eq_none hchildren, joinsBelow_of_children_eq_none hchildren]
    rfl
  | join id l r hchildren ihl ihr =>
    rw [ht.excess_of_children hchildren, ihl, ihr, pairSum_between h hchildren,
      joinsBelow_of_children hchildren, List.map_cons, List.sum_cons, List.map_append,
      List.sum_append]
    ring

/-- The weights of all pairs of a subtree are in sum the heights of its joins, each one counted once
for every pair that comes together there. -/
theorem pairSum_eq_sum (h : ofMerges (cluster m).merges = .ok t) (id : Nat) :
  pairSum m.get (pairsOf (t.members id).names)
    = ((t.joinsBelow id).map fun u => t.pairCount u * t.height u).sum
  := by
  have hsum := excess_eq_sum h 0 id
  have hzero : m.excess 0 = m.get := by
    funext a b
    apply sub_zero
  rw [excess, hzero] at hsum
  simp only [sub_zero] at hsum
  apply hsum

/-- Where no join is lower than `k`, the weights do not exceed it in sum when all joins are just as
high. -/
theorem excess_nonpos_iff (h : ofMerges (cluster m).merges = .ok t)
    (hk : ∀ u ∈ t.joinsBelow id, k ≤ t.height u) :
  t.excess m k id ≤ 0 ↔ ∀ u ∈ t.joinsBelow id, t.height u = k
  := by
  have ht := isSound_ofMerges h
  have hnonneg : ∀ x ∈ (t.joinsBelow id).map fun u => t.pairCount u * (t.height u - k), 0 ≤ x := by
    intro x hx
    obtain ⟨u, hu, rfl⟩ := List.mem_map.mp hx
    apply mul_nonneg (Nat.cast_nonneg _)
    apply sub_nonneg.mpr (hk u hu)
  rw [excess_eq_sum h]
  constructor
  · intro hsum u hu
    have hzero := List.all_zero_of_le_zero_le_of_sum_eq_zero hnonneg
      (le_antisymm hsum (List.sum_nonneg hnonneg)) (List.mem_map_of_mem hu)
    have hpos := ht.pairCount_pos (mem_joinsBelow.mp hu).2
    apply sub_eq_zero.mp
    apply (mul_eq_zero.mp hzero).resolve_left
    apply Nat.cast_ne_zero.mpr hpos.ne'
  · intro hall
    apply le_of_eq
    apply List.sum_eq_zero
    intro x hx
    obtain ⟨u, hu, rfl⟩ := List.mem_map.mp hx
    rw [hall u hu, sub_self, mul_zero]

/-- A join that is no lower than `k` is no module at `k` when all joins below it are just as high. -/
theorem moduleOf?_eq_none_iff (h : ofMerges (cluster m).merges = .ok t)
    (hid : t.children id ≠ none) (hk : k ≤ t.height id) :
  moduleOf? m k (t.members id) = none ↔ ∀ u ∈ t.joinsBelow id, t.height u = k
  := by
  have hheights : ∀ u ∈ t.joinsBelow id, k ≤ t.height u := by
    intro u hu
    obtain ⟨hbelow, hjoin⟩ := mem_joinsBelow.mp hu
    apply hk.trans (height_le_of_le h hjoin hid hbelow.le)
  rw [← excess_nonpos_iff h hheights, ← not_lt, ← lt_cohesion_iff (isSound_ofMerges h) hid, moduleOf?]
  split
  · rename_i hlt
    apply iff_of_false (Option.some_ne_none _)
    rw [not_not]
    apply of_decide_eq_true hlt
  · rename_i hlt
    apply iff_of_true rfl
    intro hlt'
    apply hlt (decide_eq_true hlt')

end Dendrogram

open Dendrogram

/-- In the tree of a clustering the mean weight of all pairs of classes of a join, counted once for
every pair, is the sum of the heights of the joins below it, each counted once for every pair that
comes together there.  A join that is found by a cut by similarity is no module exactly if all the
joins below it are as high as the point. -/
theorem cohesion_is_mean_height (m : CouplingMap ℚ) :
  ∃ t, ofMerges (cluster m).merges = .ok t ∧ ∀ id, t.children id ≠ none →
    (t.joinsBelow id).Nodup
    ∧ (∀ u, u ∈ t.joinsBelow id ↔ t.Below u id ∧ t.children u ≠ none)
    ∧ ((t.members id).size : ℚ) * ((t.members id).size - 1) / 2 * meanWeight m (t.members id).names
      = ((t.joinsBelow id).map fun u => t.pairCount u * t.height u).sum
    ∧ ∀ k top, id ∈ t.topmost (Cut.mk k .similarity).passes top →
      (moduleOf? m k (t.members id) = none ↔ ∀ u ∈ t.joinsBelow id, t.height u = k)
  := by
  obtain ⟨t, h⟩ := exists_ofMerges_merges m
  have ht := isSound_ofMerges h
  use t, h
  intro id hid
  use ht.nodup_joinsBelow id, fun u => mem_joinsBelow
  constructor
  · rw [← pairSum_eq_sum h]
    apply choose_two_mul_meanWeight
  · intro k top htop
    apply moduleOf?_eq_none_iff h hid
    apply of_decide_eq_true (ht.mem_topmost_iff.mp htop).passes

/-- Three classes that are coupled alike are one subtree at their coupling, and no module. -/
theorem cohesion_is_mean_height_alike :
  let m : CouplingMap ℚ :=
    CouplingMap.ofWeights [("A", "B", 1 / 2), ("B", "C", 1 / 2), ("C", "A", 1 / 2)]
  ∃ t, ofMerges (cluster m).merges = .ok t ∧ t.children 4 = some (3, 2) ∧ t.joinsBelow 4 = [4, 3]
    ∧ 3 * (3 - 1) / 2 * meanWeight m (t.members 4).names = 2 * (1 / 2) + 1 * (1 / 2)
    ∧ 4 ∈ t.topmost (Cut.mk (1 / 2) .similarity).passes 4 ∧ moduleOf? m (1 / 2) (t.members 4) = none
  := by
  intro m
  have hmerges : (cluster m).merges
      = [⟨.singleton "A", .singleton "B", 1 / 2⟩, ⟨.ofList ["A", "B"], .singleton "C", 1 / 2⟩] := by
    decide +kernel
  obtain ⟨t, h, hfour, hthree, hleaves, hheights, hcounts, hsize⟩ :
      ∃ t, ofMerges (cluster m).merges = .ok t
      ∧ t.children 4 = some (3, 2) ∧ t.children 3 = some (0, 1)
      ∧ (t.children 0 = none ∧ t.children 1 = none ∧ t.children 2 = none)
      ∧ (t.height 4 = 1 / 2 ∧ t.height 3 = 1 / 2) ∧ (t.pairCount 4 = 2 ∧ t.pairCount 3 = 1)
      ∧ (t.members 4).size = 3 := by
    rw [hmerges]
    refine ⟨_, rfl, rfl, rfl, ⟨rfl, rfl, rfl⟩, ⟨rfl, rfl⟩, ⟨rfl, rfl⟩, rfl⟩
  have hjoins : t.joinsBelow 4 = [4, 3] := by
    rw [joinsBelow_of_children hfour, joinsBelow_of_children hthree,
      joinsBelow_of_children_eq_none hleaves.1, joinsBelow_of_children_eq_none hleaves.2.1,
      joinsBelow_of_children_eq_none hleaves.2.2]
    rfl
  have htopmost : 4 ∈ t.topmost (Cut.mk (1 / 2) .similarity).passes 4 := by
    rw [topmost_of_children hfour, hheights.1, if_pos (by decide +kernel)]
    apply List.mem_singleton_self
  obtain ⟨t', h', hall⟩ := cohesion_is_mean_height m
  obtain rfl : t = t' := Except.ok.inj (h.symm.trans h')
  obtain ⟨-, -, hsum, hmodule⟩ := hall 4 (by simp [hfour])
  have hrejected := hmodule (1 / 2) 4 htopmost
  rw [hjoins] at hsum hrejected
  simp only [List.map_cons, List.map_nil, List.sum_cons, List.sum_nil, add_zero, hsize, hheights,
    hcounts] at hsum
  use t, h, hfour, hjoins, hsum, htopmost
  apply hrejected.mpr
  intro u hu
  rcases List.mem_cons.mp hu with rfl | hu
  · apply hheights.1
  · obtain rfl := List.mem_singleton.mp hu
    apply hheights.2

end Cohesion
