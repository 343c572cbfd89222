import Cohesion.Proofs.ExactLink
import Cohesion.Proofs.Modules
import Mathlib.Tactic.Linarith

/-!
# Modules at two cut points

`t.excess m k id` sums up by how much the couplings of all pairs of classes of a node exceed `k`.
In the tree of a clustering without rounding a join as high as `k` adds pairs that do not lower the
sum, and all joins below it are as high: the sum of a node below it is at most its own.  So if a
topmost node passes a cut, and a module of a higher cut is below it, then its classes are cohesive
enough for a module of their own: `modules_refine`.
-/

namespace Cohesion

variable {m : CouplingMap ℚ} {k : ℚ}

/-! ### Cohesion as excess -/

/-- The mean over no pairs is nothing. -/
theorem meanWeight_eq (m : CouplingMap ℚ) (names : List String) :
  meanWeight m names = pairSum m.get (pairsOf names) / (pairsOf names).length
  := by
  rw [meanWeight, pairSum, List.sum_eq_foldl, List.length_map]
  split
  · rename_i hlength
    rw [hlength, Nat.cast_zero, div_zero]
    rfl
  · rfl

/-- The mean weight of two or more classes is above `k` when the weights exceed it in sum. -/
theorem lt_meanWeight_iff {names : List String} (hnames : 2 ≤ names.length) :
  k < meanWeight m names ↔ 0 < pairSum (m.excess k) (pairsOf names)
  := by
  have hpairs : pairsOf names ≠ [] := by
    rw [ne_eq, pairsOf_eq_nil_iff]
    omega
  rw [meanWeight_eq]
  apply lt_mean_iff hpairs

namespace Dendrogram

variable {t : Dendrogram ℚ} {id top l r : Nat}

/-- By how much the weights of all pairs of classes of a node exceed `k` in sum. -/
def excess (t : Dendrogram ℚ) (m : CouplingMap ℚ) (k : ℚ) (id : Nat) : ℚ :=
  pairSum (m.excess k) (pairsOf (t.members id).names)

/-- A cohesion is above a bound exactly when the excess of the node over it is positive. -/
theorem lt_cohesion_iff (ht : t.IsSound) (h : t.children id ≠ none) :
  k < (t.moduleAt m id).cohesion ↔ 0 < t.excess m k id
  := lt_meanWeight_iff (ht.two_le_size h)

/-- A single class has no pairs. -/
theorem IsSound.excess_of_children_eq_none (ht : t.IsSound) (h : t.children id = none) :
  t.excess m k id = 0
  := by
  have hpairs : pairsOf (t.members id).names = [] := by
    cases hn : t.nodes[id]? with
    | none =>
      rw [members_of_eq_none hn]
      rfl
    | some n =>
      obtain ⟨hid, -⟩ := Array.getElem?_eq_some_iff.mp hn
      obtain ⟨name, hname⟩ := ht.exists_members_eq_singleton hid h
      rw [hname]
      rfl
  rw [excess, hpairs, pairSum_nil]

/-- The pairs of a join are those of its children and those between them. -/
theorem IsSound.excess_of_children (ht : t.IsSound) (h : t.children id = some (l, r)) :
  t.excess m k id = t.excess m k l
    + pairSum (m.excess k) ((t.members l).names ×ˢ (t.members r).names) + t.excess m k r
  := by
  rw [excess, ht.members_of_children h,
    pairSum_pairsOf_union (m.excess_comm k) (ht.disjoint_of_children h)]
  rfl

/-! ### Joins as high as a point -/

/-- The pairs that a join as high as `k` adds exceed `k` in sum. -/
theorem between_nonneg (h : ofMerges (cluster m).merges = .ok t)
    (hchildren : t.children id = some (l, r)) (hk : k ≤ t.height id) :
  0 ≤ pairSum (m.excess k) ((t.members l).names ×ˢ (t.members r).names)
  := by
  have ht := isSound_ofMerges h
  obtain ⟨hl, hr, -⟩ := ht.of_children hchildren
  rw [height_eq_averageLink h hchildren] at hk
  apply (le_averageLink_iff (ht.members_ne_empty hl) (ht.members_ne_empty hr)).mp hk

/-- If a join is as high as `k`, so are the joins among its children. -/
theorem le_height_of_isChild (h : ofMerges (cluster m).merges = .ok t) (hchild : t.IsChild id top)
    (hk : k ≤ t.height top) (hid : t.children id ≠ none) :
  k ≤ t.height id
  := hk.trans (height_le_of_le h hid hchild.children_ne_none hchild.lt.le)

/-- The excess of a leaf, or of a join as high as `k`, is not negative. -/
theorem excess_nonneg (h : ofMerges (cluster m).merges = .ok t)
    (hk : t.children id ≠ none → k ≤ t.height id) :
  0 ≤ t.excess m k id
  := by
  have ht := isSound_ofMerges h
  induction id using t.induction_on with
  | leaf id hchildren => rw [ht.excess_of_children_eq_none hchildren]
  | join id l r hchildren ihl ihr =>
    have hid : k ≤ t.height id := by
      apply hk
      rw [hchildren]
      apply Option.some_ne_none
    rw [ht.excess_of_children hchildren]
    apply add_nonneg
    · apply add_nonneg
      · apply ihl
        apply le_height_of_isChild h (isChild_left hchildren) hid
      · apply between_nonneg h hchildren hid
    · apply ihr
      apply le_height_of_isChild h (isChild_right hchildren) hid

/-- The excess of a join as high as `k` is at least that of its children. -/
theorem excess_le_of_isChild (h : ofMerges (cluster m).merges = .ok t)
    (hchild : t.IsChild id top) (hk : k ≤ t.height top) :
  t.excess m k id ≤ t.excess m k top
  := by
  obtain ⟨l, r, hchildren, hid⟩ := hchild
  have hbetween := between_nonneg h hchildren hk
  have hl := excess_nonneg h (le_height_of_isChild h (isChild_left hchildren) hk)
  have hr := excess_nonneg h (le_height_of_isChild h (isChild_right hchildren) hk)
  rw [(isSound_ofMerges h).excess_of_children hchildren]
  rcases hid with rfl | rfl
  · linarith
  · linarith

/-- The excess of a join as high as `k` is at least that of all nodes below it. -/
theorem excess_le_of_below (h : ofMerges (cluster m).merges = .ok t) (hbelow : t.Below id top)
    (hk : t.children top ≠ none → k ≤ t.height top) :
  t.excess m k id ≤ t.excess m k top
  := by
  induction hbelow with
  | refl => apply le_refl
  | tail _ hchild ih =>
    have htop := hk hchild.children_ne_none
    apply (ih (le_height_of_isChild h hchild htop)).trans
    apply excess_le_of_isChild h hchild htop

/-! ### Two cuts -/

/-- A module at a higher point is below a node that is a module at the lower one. -/
theorem IsModuleNode.exists_above (h : ofMerges (cluster m).merges = .ok t) {k' : ℚ} (hle : k ≤ k')
    (hid : t.IsModuleNode m ⟨k', .similarity⟩ id) :
  ∃ top ∈ t.moduleNodes m ⟨k, .similarity⟩, t.Below id top
  := by
  have ht := isSound_ofMerges h
  obtain ⟨root, hroot, hbelow⟩ := hid.below_root
  have hpasses : k ≤ t.height id := hle.trans (of_decide_eq_true hid.passes)
  obtain ⟨top, htop, hidtop⟩ : ∃ a ∈ t.topmost (Cut.mk k .similarity).passes root, t.Below id a :=
    exists_mem_topmost hbelow hid.children_ne_none (decide_eq_true hpasses)
  have htopmost := ht.mem_topmost_iff.mp htop
  have hcohesive : k < (t.moduleAt m id).cohesion := hle.trans_lt (of_decide_eq_true hid.cohesive)
  use top
  constructor
  · rw [mem_moduleNodes ht hroot]
    use htopmost
    apply decide_eq_true
    rw [lt_cohesion_iff ht htopmost.children_ne_none]
    apply ((lt_cohesion_iff ht hid.children_ne_none).mp hcohesive).trans_le
    apply excess_le_of_below h hidtop
    intro
    apply of_decide_eq_true htopmost.passes
  · apply hidtop

end Dendrogram

open Dendrogram

/-- Each module at a cut point of a clustering is within exactly one module at any lower point. -/
theorem modules_refine (m : CouplingMap ℚ) {k k' : ℚ} (hle : k ≤ k') :
  ∃ coarse fine, modulesOfMerges (cluster m).merges m ⟨k, .similarity⟩ = .ok coarse
    ∧ modulesOfMerges (cluster m).merges m ⟨k', .similarity⟩ = .ok fine
    ∧ ∀ a ∈ fine, ∃! i : Fin coarse.length, ∀ x ∈ a.classes, x ∈ coarse[i].classes
  := by
  obtain ⟨t, h⟩ := exists_ofMerges_merges m
  have ht := isSound_ofMerges h
  use t.modules m ⟨k, .similarity⟩, t.modules m ⟨k', .similarity⟩, modulesOfMerges_eq h m _,
    modulesOfMerges_eq h m _
  intro a ha
  obtain ⟨id, hid, rfl⟩ := ht.mem_modules.mp ha
  have hid := (mem_moduleNodes_iff h).mp hid
  obtain ⟨top, htop, hbelow⟩ := hid.exists_above h hle
  obtain ⟨i, hi, hitop⟩ := List.mem_iff_getElem.mp (ht.mem_modules.mpr ⟨top, htop, rfl⟩)
  have hwithin : ∀ x ∈ (t.moduleAt m id).classes, x ∈ (t.modules m ⟨k, .similarity⟩)[i].classes := by
    intro x hx
    rw [hitop]
    apply ht.mem_of_below hbelow hx
  use ⟨i, hi⟩, hwithin
  intro j hj
  obtain ⟨x, hx⟩ := NameSet.ne_empty_iff.mp
    (ht.members_ne_empty (lt_size_of_children_ne_none hid.children_ne_none))
  apply ht.eq_of_mem_modules (hj x hx) (hwithin x hx)

/-- Of three classes in a row the two that are coupled more are a module at `3 / 4`, which is within
one module at `1 / 8`. -/
theorem modules_refine_row :
  let m : CouplingMap ℚ := CouplingMap.ofWeights [("A", "B", 1), ("B", "C", 1 / 2)]
  let ab := NameSet.ofList ["A", "B"]
  ∃ coarse fine, modulesOfMerges (cluster m).merges m ⟨1 / 8, .similarity⟩ = .ok coarse
    ∧ modulesOfMerges (cluster m).merges m ⟨3 / 4, .similarity⟩ = .ok fine ∧ ⟨ab, 1⟩ ∈ fine
    ∧ ∃! i : Fin coarse.length, ∀ x ∈ ab, x ∈ coarse[i].classes
  := by
  intro m ab
  have hmerges : (cluster m).merges
      = [⟨.singleton "A", .singleton "B", 1⟩, ⟨ab, .singleton "C", 1 / 4⟩] := by decide +kernel
  obtain ⟨t, h, hroot, hfour, hthree, hheights, hmembers⟩ : ∃ t, ofMerges (cluster m).merges = .ok t
      ∧ t.root? = some 4 ∧ t.children 4 = some (3, 2) ∧ t.children 3 = some (0, 1)
      ∧ (t.height 4 = 1 / 4 ∧ t.height 3 = 1) ∧ t.members 3 = ab := by
    rw [hmerges]
    refine ⟨_, rfl, rfl, rfl, rfl, ⟨rfl, rfl⟩, rfl⟩
  have hmodule : t.moduleAt m 3 = ⟨ab, 1⟩ := by
    rw [moduleAt, hmembers]
    decide +kernel
  have hid : 3 ∈ t.moduleNodes m ⟨3 / 4, .similarity⟩ := by
    rw [moduleNodes, hroot]
    apply List.mem_filter.mpr
    rw [topmost_of_children hfour, hheights.1, if_neg (by decide +kernel),
      topmost_of_children hthree, hheights.2, if_pos (by decide +kernel), hmembers]
    use List.mem_cons_self
    decide +kernel
  have hle : (1 / 8 : ℚ) ≤ 3 / 4 := by decide +kernel
  obtain ⟨coarse, fine, hcoarse, hfine, hwithin⟩ := modules_refine m hle
  have hmem : ⟨ab, 1⟩ ∈ fine := by
    rw [← hmodule, ← Except.ok.inj ((modulesOfMerges_eq h m _).symm.trans hfine)]
    apply (isSound_ofMerges h).mem_modules.mpr
    use 3, hid
  use coarse, fine, hcoarse, hfine, hmem
  apply hwithin _ hmem

end Cohesion
