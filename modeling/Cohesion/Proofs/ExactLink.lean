import Cohesion.Proofs.ClusterTree
import Cohesion.Proofs.Encoding
import Cohesion.Proofs.PairSums
import Cohesion.Proofs.Preference

/-!
# Clustering without rounding

Over fractions the link of two blocks is the mean weight of the pairs between them, so a union links
to a third block no more strongly than the stronger of its sides: `averageLink_union_le`.  The best
merge of some blocks has the strongest link of all of them, hence no later merge has a higher score,
and in the tree of a clustering the later of two joins is at most as high: `height_le_of_le`.
-/

namespace Cohesion

variable {m : CouplingMap ℚ} {k : ℚ} {s t u : NameSet}

/-! ### Links as means -/

/-- By how much the weight of two classes exceeds `k`. -/
def CouplingMap.excess (m : CouplingMap ℚ) (k : ℚ) (a b : String) : ℚ :=
  m.get a b - k

theorem CouplingMap.excess_comm (m : CouplingMap ℚ) (k : ℚ) (a b : String) :
  m.excess k a b = m.excess k b a
  := by
  rw [excess, excess, get_comm]

/-- The mean over no pairs is nothing. -/
theorem averageLink_eq (m : CouplingMap ℚ) (s t : NameSet) :
  averageLink m s t = pairSum m.get (s.names ×ˢ t.names) / (s.names ×ˢ t.names).length
  := by
  have hsum : Score.sum (s.names.flatMap fun a => t.names.map (m.get a))
      = pairSum m.get (s.names ×ˢ t.names) := by
    rw [pairSum, List.sum_eq_foldl, Score.sum]
    simp only [SProd.sprod, List.product, List.map_flatMap, List.map_map]
    rfl
  rw [averageLink, hsum, List.length_product]
  split
  · rename_i hcount
    rw [NameSet.size, NameSet.size] at hcount
    rw [hcount, Nat.cast_zero, div_zero]
    rfl
  · rfl

/-- The average link does not depend on the order of the two sets. -/
theorem averageLink_comm (m : CouplingMap ℚ) (s t : NameSet) :
  averageLink m s t = averageLink m t s
  := by
  rw [averageLink_eq, averageLink_eq, pairSum_product_comm m.get_comm, List.length_product,
    List.length_product, Nat.mul_comm]

theorem averageLink_le_symm (h : averageLink m s t ≤ k) :
  averageLink m t s ≤ k
  := by
  rw [averageLink_comm]
  apply h

instance : Std.Symm fun s t => averageLink m s t ≤ k :=
  ⟨fun _ _ => averageLink_le_symm⟩

theorem product_names_ne_nil (hs : s ≠ ∅) (ht : t ≠ ∅) :
  s.names ×ˢ t.names ≠ []
  := by
  obtain ⟨x, hx⟩ := NameSet.ne_empty_iff.mp hs
  obtain ⟨y, hy⟩ := NameSet.ne_empty_iff.mp ht
  apply List.ne_nil_of_mem (List.pair_mem_product.mpr ⟨hx, hy⟩)

/-- An average link is at most a bound exactly when the excesses over it sum up to at most zero. -/
theorem averageLink_le_iff (hs : s ≠ ∅) (ht : t ≠ ∅) :
  averageLink m s t ≤ k ↔ pairSum (m.excess k) (s.names ×ˢ t.names) ≤ 0
  := by
  rw [averageLink_eq]
  apply mean_le_iff (product_names_ne_nil hs ht)

/-- An average link is at least a bound exactly when the excesses over it sum up to at least zero. -/
theorem le_averageLink_iff (hs : s ≠ ∅) (ht : t ≠ ∅) :
  k ≤ averageLink m s t ↔ 0 ≤ pairSum (m.excess k) (s.names ×ˢ t.names)
  := by
  rw [averageLink_eq]
  apply le_mean_iff (product_names_ne_nil hs ht)

/-- A union links to a third set no more strongly than both of its sides may. -/
theorem averageLink_union_le (hs : s ≠ ∅) (ht : t ≠ ∅) (hu : u ≠ ∅) (hdisjoint : s.Disjoint t)
    (hsu : averageLink m s u ≤ k) (htu : averageLink m t u ≤ k) :
  averageLink m (s ∪ t) u ≤ k
  := by
  have hunion : s ∪ t ≠ ∅ := by
    obtain ⟨x, hx⟩ := NameSet.ne_empty_iff.mp hs
    apply NameSet.ne_empty_iff.mpr
    use x, NameSet.mem_union.mpr (Or.inl hx)
  rw [averageLink_le_iff hunion hu, pairSum_product_union (m.excess k) hdisjoint]
  apply add_nonpos
  · apply (averageLink_le_iff hs hu).mp hsu
  · apply (averageLink_le_iff ht hu).mp htu

/-! ### The strongest link of a partition -/

variable {blocks : List NameSet} {classes : NameSet} {c : Merge ℚ}

/-- No two blocks are linked more strongly than `k`. -/
def LinksAtMost (m : CouplingMap ℚ) (k : ℚ) (blocks : List NameSet) : Prop :=
  blocks.Pairwise fun b d => averageLink m b d ≤ k

/-- Where all links are at most a bound, so is the score of every candidate. -/
theorem LinksAtMost.score_le (h : LinksAtMost m k blocks) (hc : c ∈ Merge.candidates m blocks) :
  c.score ≤ k
  := by
  obtain ⟨hpair, hscore⟩ := Merge.mem_candidates.mp hc
  rw [hscore]
  apply pairwise_iff_forall_mem_pairsOf.mp h _ _ hpair

/-- The best merge joins the blocks with the strongest link. -/
theorem linksAtMost_of_best? (h : Merge.best? (Merge.candidates m blocks) = some c) :
  LinksAtMost m c.score blocks
  := by
  apply pairwise_iff_forall_mem_pairsOf.mpr
  intro b d hbd
  have hle := Merge.score_le_of_best? Score.isTotalOn_rat (fun _ _ => trivial) h
    ⟨b, d, averageLink m b d⟩ (Merge.mem_candidates.mpr ⟨hbd, rfl⟩)
  apply of_decide_eq_true hle

/-- A merge of two blocks makes no link stronger than all links before it. -/
theorem LinksAtMost.replayStep (h : LinksAtMost m k blocks) (hblocks : IsPartition classes blocks)
    (hleft : c.left ∈ blocks) (hright : c.right ∈ blocks) (hne : c.left ≠ c.right) :
  LinksAtMost m k (replayStep blocks c)
  := by
  apply List.pairwise_append.mpr
  use List.Pairwise.filter _ h, List.pairwise_singleton _ _
  intro b hb d hd
  obtain rfl := List.mem_singleton.mp hd
  obtain ⟨hb, hsides⟩ := List.mem_filter.mp hb
  obtain ⟨hbl, hbr⟩ := of_decide_eq_true hsides
  apply averageLink_le_symm
  apply averageLink_union_le
  · apply hblocks.ne_empty _ hleft
  · apply hblocks.ne_empty _ hright
  · apply hblocks.ne_empty _ hb
  · apply hblocks.disjoint_of_ne hleft hright hne
  · apply List.Pairwise.forall h hleft hb hbl.symm
  · apply List.Pairwise.forall h hright hb hbr.symm

/-! ### Runs -/

/-- Once no link is stronger than `k`, none will be. -/
theorem LinksAtMost.blocksAfter {step later : Nat} (h : LinksAtMost m k (blocksAfter m step))
    (hle : step ≤ later) :
  LinksAtMost m k (blocksAfter m later)
  := by
  induction later, hle using Nat.le_induction with
  | base => apply h
  | succ later hle ih =>
    by_cases hlater : later < (cluster m).merges.length
    · have hjoinable := (joinable_merges hlater).1
      have hstep := ih.replayStep (isOrderedPartition_blocksAfter m later).toIsPartition
        hjoinable.left_mem hjoinable.right_mem hjoinable.left_startsBefore.ne
      apply ((blocksAfter_succ_perm hlater).pairwise_iff averageLink_le_symm).mpr hstep
    · rw [blocksAfter_succ_of_le (not_lt.mp hlater)]
      apply ih

/-- No merge has a higher score than an earlier one. -/
theorem score_merges_le {step later : Nat} (hstep : step < (cluster m).merges.length)
    (hlater : later < (cluster m).merges.length) (hle : step ≤ later) :
  (cluster m).merges[later].score ≤ (cluster m).merges[step].score
  := by
  have hlinks := (linksAtMost_of_best? (best?_blocksAfter hstep).1).blocksAfter hle
  apply hlinks.score_le
  apply Merge.mem_of_best? (best?_blocksAfter hlater).1

namespace Dendrogram

variable {t : Dendrogram ℚ}

/-- A join is as high as its children are linked. -/
theorem height_eq_averageLink (h : ofMerges (cluster m).merges = .ok t) {id l r : Nat}
    (hchildren : t.children id = some (l, r)) :
  t.height id = averageLink m (t.members l) (t.members r)
  := by
  obtain ⟨step, hstep, -, hmerge⟩ := exists_getElem_of_children h hchildren
  have hscore := (joinable_merges hstep).2
  rw [hmerge] at hscore
  apply hscore

/-- Later joins are at most as high as earlier ones. -/
theorem height_le_of_le (h : ofMerges (cluster m).merges = .ok t) {id later : Nat}
    (hid : t.children id ≠ none) (hlater : t.children later ≠ none) (hle : id ≤ later) :
  t.height later ≤ t.height id
  := by
  obtain ⟨⟨l, r⟩, hid⟩ := Option.ne_none_iff_exists'.mp hid
  obtain ⟨⟨l', r'⟩, hlater⟩ := Option.ne_none_iff_exists'.mp hlater
  obtain ⟨step, hstep, rfl, hmerge⟩ := exists_getElem_of_children h hid
  obtain ⟨step', hstep', rfl, hmerge'⟩ := exists_getElem_of_children h hlater
  have hscore := score_merges_le hstep hstep' (Nat.le_of_add_le_add_left hle)
  rw [hmerge, hmerge'] at hscore
  apply hscore

end Dendrogram

open Dendrogram

/-- The scores of a clustering do not increase, so in its tree no join is higher than a join that is
one of its children. -/
theorem cluster_has_no_inversions (m : CouplingMap ℚ) :
  ((cluster m).merges.map Merge.score).Pairwise (· ≥ ·)
    ∧ ∃ t, ofMerges (cluster m).merges = .ok t
      ∧ ∀ id parent, t.IsChild id parent → t.children id ≠ none → t.height parent ≤ t.height id
  := by
  constructor
  · apply List.pairwise_map.mpr
    apply List.pairwise_iff_getElem.mpr
    intro step later hstep hlater hlt
    apply score_merges_le hstep hlater hlt.le
  · obtain ⟨t, ht⟩ := exists_ofMerges_merges m
    use t, ht
    intro id parent hchild hid
    apply height_le_of_le ht hid hchild.children_ne_none hchild.lt.le

/-- The join of three classes is lower than that of the two of them that are coupled most. -/
theorem cluster_has_no_inversions_triangle :
  let m : CouplingMap ℚ := CouplingMap.ofWeights [("A", "B", 1 / 2), ("B", "C", -1 / 3), ("C", "A", 1)]
  ∃ t, ofMerges (cluster m).merges = .ok t ∧ t.children 4 = some (3, 2)
    ∧ t.height 4 ≤ t.height 3
  := by
  intro m
  have hmerges : (cluster m).merges
      = [⟨.singleton "A", .singleton "C", 1⟩, ⟨.ofList ["A", "C"], .singleton "B", 1 / 12⟩] := by
    decide +kernel
  obtain ⟨t, ht, hchildren, hchildren'⟩ : ∃ t, ofMerges (cluster m).merges = .ok t
      ∧ t.children 4 = some (3, 2) ∧ t.children 3 = some (0, 1) := by
    rw [hmerges]
    refine ⟨_, rfl, rfl, rfl⟩
  obtain ⟨t', ht', hheight⟩ := (cluster_has_no_inversions m).2
  obtain rfl : t = t' := Except.ok.inj (ht.symm.trans ht')
  use t, ht, hchildren
  apply hheight 3 4 (isChild_left hchildren)
  rw [hchildren']
  apply Option.some_ne_none

end Cohesion
