import Cohesion.Proofs.Clustering
import Cohesion.Proofs.Dendrogram

/-!
# The tree of a clustering

Replaying the merges of a run over the classes gives the blocks of the run, up to their order:
`blocksAfter_perm`.  As the last merge makes one block of all classes, the sequence mentions all of
them, hence each of its merges fits, and its tree has all classes for the members of its root.
-/

namespace Cohesion

variable {S : Type} [Score S] {m : CouplingMap S}

/-- After the last merge the blocks stay as they are. -/
theorem blocksAfter_succ_of_le {steps : Nat} (h : (cluster m).merges.length ≤ steps) :
  blocksAfter m (steps + 1) = blocksAfter m steps
  := by
  rw [length_merges] at h
  rw [blocksAfter, agglomerate_add]
  apply congrArg Prod.snd (agglomerate_of_length_le_one _ 1)
  rw [← blocksAfter, length_blocksAfter]
  omega

/-- The blocks of a run are the replay of its merges over the single classes. -/
theorem blocksAfter_perm (m : CouplingMap S) (steps : Nat) :
  (blocksAfter m steps).Perm
    (((cluster m).merges.take steps).foldl replayStep (singletons m.classes))
  := by
  induction steps with
  | zero => apply List.Perm.refl
  | succ steps ih =>
    by_cases h : steps < (cluster m).merges.length
    · rw [List.take_succ_eq_append_getElem h, List.foldl_append]
      apply (blocksAfter_succ_perm h).trans (replayStep_perm ih _)
    · have hle := not_lt.mp h
      rw [blocksAfter_succ_of_le hle, List.take_of_length_le (Nat.le_succ_of_le hle)]
      rw [List.take_of_length_le hle] at ih
      apply ih

/-- The last merge makes one block of all classes. -/
theorem exists_merged_eq_classes (h : 1 < m.classes.size) :
  ∃ c ∈ (cluster m).merges, c.merged = m.classes
  := by
  obtain ⟨last, hlast⟩ := Nat.exists_eq_add_of_lt h
  have hstep : last < (cluster m).merges.length := by
    rw [length_merges]
    omega
  have hblocks : blocksAfter m (last + 1) = [m.classes] := by
    apply (isOrderedPartition_blocksAfter m (last + 1)).eq_of_length_eq_one
    rw [length_blocksAfter]
    omega
  use (cluster m).merges[last], List.getElem_mem hstep
  have hmem : (cluster m).merges[last].merged ∈ blocksAfter m (last + 1) :=
    (blocksAfter_succ_perm hstep).mem_iff.mpr (mem_replayStep.mpr (Or.inr rfl))
  rw [hblocks] at hmem
  apply List.mem_singleton.mp hmem

namespace Dendrogram

/-- The merges of a run mention all classes, and no other names. -/
theorem ofList_mentioned_merges (h : 1 < m.classes.size) :
  NameSet.ofList (mentioned (cluster m).merges) = m.classes
  := by
  ext x
  rw [NameSet.mem_ofList, mem_mentioned]
  constructor
  · rintro ⟨c, hc, hx⟩
    obtain ⟨step, hstep, rfl⟩ := List.mem_iff_getElem.mp hc
    have hjoinable := (joinable_merges hstep).1
    have hpartition := isOrderedPartition_blocksAfter m step
    rcases NameSet.mem_union.mp hx with hx | hx
    · apply hpartition.subset hjoinable.left_mem hx
    · apply hpartition.subset hjoinable.right_mem hx
  · intro hx
    obtain ⟨c, hc, hmerged⟩ := exists_merged_eq_classes h
    use c, hc
    rw [hmerged]
    apply hx

/-- Every merge of a run fits the blocks before it. -/
theorem fitsAt_merges (m : CouplingMap S) (step : Nat) :
  FitsAt (cluster m).merges step
  := by
  intro c hc
  obtain ⟨hstep, rfl⟩ := List.getElem?_eq_some_iff.mp hc
  have hclasses : 1 < m.classes.size := by
    rw [length_merges] at hstep
    omega
  have hperm := blocksAfter_perm m step
  rw [← ofList_mentioned_merges hclasses, ← replayed] at hperm
  obtain ⟨hleft, hright, hlt⟩ := (joinable_merges hstep).1
  constructor
  · apply hperm.mem_iff.mp hleft
  · apply hperm.mem_iff.mp hright
  · apply (isOrderedPartition_blocksAfter m step).disjoint_of_ne hleft hright hlt.ne

/-- The merges of a clustering always build a dendrogram. -/
theorem exists_ofMerges_merges (m : CouplingMap S) :
  ∃ t, ofMerges (cluster m).merges = .ok t
  := exists_ofMerges_iff.mpr (fitsAt_merges m)

/-- Every member of a node of that dendrogram is a class of the map. -/
theorem mem_classes_of_mem_members {t : Dendrogram S} (h : 1 < m.classes.size)
    (ht : ofMerges (cluster m).merges = .ok t) (id : Nat) (x : String) (hx : x ∈ t.members id) :
  x ∈ m.classes
  := by
  rw [← ofList_mentioned_merges h, NameSet.mem_ofList]
  cases hn : t.nodes[id]? with
  | none =>
    rw [members_of_eq_none hn] at hx
    apply absurd hx (NameSet.not_mem_empty x)
  | some n =>
    rw [members_of_eq_some hn] at hx
    rcases (exists_members_ofMerges_iff ht).mp ⟨n, Array.mem_of_getElem? hn, rfl⟩ with
      ⟨y, hy, heq⟩ | ⟨c, hc, heq⟩
    · rw [← heq, NameSet.mem_singleton] at hx
      rw [hx]
      apply hy
    · apply mem_mentioned.mpr
      use c, hc
      rw [heq]
      apply hx

/-- The root of the tree of two or more classes has all of them for its members. -/
theorem exists_root {t : Dendrogram S} (h : 1 < m.classes.size)
    (ht : ofMerges (cluster m).merges = .ok t) :
  ∃ root, t.root? = some root ∧ t.members root = m.classes
  := by
  obtain ⟨c, hc, hmerged⟩ := exists_merged_eq_classes h
  obtain ⟨n, hn, hmembers⟩ := (exists_members_ofMerges_iff ht).mpr (Or.inr ⟨c, hc, rfl⟩)
  obtain ⟨id, hid, rfl⟩ := Array.mem_iff_getElem.mp hn
  apply members_root hid _ (mem_classes_of_mem_members h ht)
  rw [members_of_eq_some (Array.getElem?_eq_getElem hid), hmembers, hmerged]

/-- Over n classes that dendrogram has 2n - 1 nodes. -/
theorem size_tree {t : Dendrogram S} (h : 1 < m.classes.size)
    (ht : ofMerges (cluster m).merges = .ok t) :
  t.size = 2 * m.classes.size - 1
  := by
  rw [size_ofMerges ht, ofList_mentioned_merges h, length_merges]
  omega

end Dendrogram

end Cohesion
