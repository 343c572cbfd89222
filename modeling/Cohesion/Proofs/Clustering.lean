import Cohesion.Clustering
import Cohesion.Proofs.Coupling
import Cohesion.Proofs.Pairs
import Cohesion.Proofs.Partition

/-!
# Runs of the clustering

`blocksAfter m steps` are the blocks of a coupling map after so many merges.  Each merge of a run is
the best one of the blocks before it, and the blocks after it are the ones it makes of them:
`best?_blocksAfter` and `blocksAfter_succ`.  What one merge preserves therefore holds of all blocks
of a run, first of all that they are an ordered partition.
-/

namespace Cohesion

variable {S : Type} {blocks : List NameSet}

/-! ### One merge -/

namespace Merge

/-- Applying a merge leaves one block fewer. -/
theorem length_apply {c : Merge S} (hright : c.right ∈ blocks) :
  (c.apply blocks).length + 1 = blocks.length
  := by
  rw [apply, List.length_map, List.length_erase_add_one hright]

/-- Among different blocks the union takes the place of both sides. -/
theorem apply_perm {c : Merge S} (hnodup : blocks.Nodup) (hleft : c.left ∈ blocks)
    (hne : c.left ≠ c.right) :
  (c.apply blocks).Perm (replayStep blocks c)
  := by
  have hleft' : c.left ∈ blocks.erase c.right := (List.mem_erase_of_ne hne).mpr hleft
  have hrest : (blocks.erase c.right).erase c.left
      = blocks.filter fun b => b ≠ c.left ∧ b ≠ c.right := by
    rw [(hnodup.erase c.right).erase_eq_filter, hnodup.erase_eq_filter, List.filter_filter]
    apply List.filter_congr
    intro b hb
    rw [Bool.eq_iff_iff]
    simp
  have hmap : (blocks.erase c.right).Perm
      (c.left :: blocks.filter fun b => b ≠ c.left ∧ b ≠ c.right) := by
    rw [← hrest]
    apply List.perm_cons_erase hleft'
  rw [apply]
  apply (hmap.map _).trans
  rw [List.map_cons, if_pos rfl, List.map_congr_left (g := id), List.map_id, replayStep]
  · apply (List.perm_append_singleton _ _).symm
  · intro b hb
    rw [if_neg (of_decide_eq_true (List.mem_filter.mp hb).2).1, id]

/-- A merge that may be made in an ordered partition: its sides are blocks, and the left one starts
before the right one. -/
structure Joinable (c : Merge S) (blocks : List NameSet) : Prop where
  left_mem : c.left ∈ blocks
  right_mem : c.right ∈ blocks
  left_startsBefore : c.left.StartsBefore c.right

end Merge

/-- The union keeps the place of the left block in an ordered partition. -/
theorem IsOrderedPartition.apply {classes : NameSet} {c : Merge S}
    (h : IsOrderedPartition classes blocks) (hc : c.Joinable blocks) :
  IsOrderedPartition classes (c.apply blocks)
  := by
  obtain ⟨hleft, hright, hlt⟩ := hc
  have hleast (b : NameSet) : (if b = c.left then c.merged else b).least? = b.least? := by
    split
    · rename_i hb
      rw [hb, Merge.merged, NameSet.least?_union hlt]
    · rfl
  constructor
  · apply (h.replayStep hleft hright).perm
    symm
    apply Merge.apply_perm h.nodup hleft hlt.ne
  · apply List.pairwise_map.mpr
    apply (h.ascending.sublist List.erase_sublist).imp
    intro b d hbd
    apply hbd.congr (hleast b) (hleast d)

variable [Score S] {m : CouplingMap S}

/-! ### The best merge -/

namespace Merge

/-- The candidates are the pairs of blocks, each with its average link. -/
theorem mem_candidates {c : Merge S} :
  c ∈ candidates m blocks
    ↔ (c.left, c.right) ∈ pairsOf blocks ∧ c.score = averageLink m c.left c.right
  := by
  rw [candidates, List.mem_map]
  constructor
  · rintro ⟨⟨left, right⟩, h, rfl⟩
    use h
  · obtain ⟨left, right, score⟩ := c
    rintro ⟨h, hscore⟩
    obtain rfl : score = averageLink m left right := hscore
    use (left, right), h

/-- There is nothing to merge exactly when at most one block is left. -/
theorem candidates_eq_nil_iff :
  candidates m blocks = [] ↔ blocks.length ≤ 1
  := by
  rw [candidates, List.map_eq_nil_iff, pairsOf_eq_nil_iff]

/-- Keeping the better of each two candidates ends in one of them. -/
theorem foldl_better_mem (c : Merge S) (cs : List (Merge S)) :
  cs.foldl (fun best c => if c.beats best then c else best) c ∈ c :: cs
  := by
  induction cs generalizing c with
  | nil => apply List.mem_cons_self
  | cons d ds ih =>
    rw [List.foldl_cons]
    split
    · apply List.mem_cons_of_mem c (ih d)
    · rcases List.mem_cons.mp (ih c) with h | h
      · rw [h]
        apply List.mem_cons_self
      · apply List.mem_cons_of_mem c (List.mem_cons_of_mem d h)

theorem mem_of_best? {c : Merge S} {cs : List (Merge S)} (h : best? cs = some c) :
  c ∈ cs
  := by
  cases cs with
  | nil => cases h
  | cons d ds =>
    rw [← Option.some.inj h]
    apply foldl_better_mem

/-- Among some candidates there is a best one. -/
theorem exists_best? {cs : List (Merge S)} (h : cs ≠ []) :
  ∃ c, best? cs = some c
  := by
  cases cs with
  | nil => apply absurd rfl h
  | cons d ds =>
    apply Exists.intro
    rfl

/-- The candidates of an ordered partition are the merges that may be made, at the score of their
sides. -/
theorem mem_candidates_iff {classes : NameSet} (h : IsOrderedPartition classes blocks)
    {c : Merge S} :
  c ∈ candidates m blocks ↔ c.Joinable blocks ∧ c.score = averageLink m c.left c.right
  := by
  rw [mem_candidates, mem_pairsOf_iff_of_pairwise (R := NameSet.StartsBefore)
    (fun _ _ _ => NameSet.StartsBefore.trans) NameSet.StartsBefore.irrefl h.ascending]
  apply and_congr_left
  rintro -
  constructor
  · rintro ⟨hleft, hright, hlt⟩
    use hleft, hright
  · rintro ⟨hleft, hright, hlt⟩
    use hleft, hright

end Merge

/-! ### Runs -/

/-- A single block is left as it is, however many steps remain. -/
theorem agglomerate_of_length_le_one (h : blocks.length ≤ 1) (steps : Nat) :
  agglomerate m steps blocks = ([], blocks)
  := by
  cases steps with
  | zero => rfl
  | succ steps =>
    rw [agglomerate, Merge.candidates_eq_nil_iff.mpr h]
    rfl

/-- A step applies the best candidate, and the remaining steps go on from there. -/
theorem agglomerate_succ {c : Merge S} (h : Merge.best? (Merge.candidates m blocks) = some c)
    (steps : Nat) :
  agglomerate m (steps + 1) blocks
    = (c :: (agglomerate m steps (c.apply blocks)).1, (agglomerate m steps (c.apply blocks)).2)
  := by
  rw [agglomerate, h]

/-- Two or more blocks have a best merge, which leaves one block less. -/
theorem exists_best?_of_one_lt_length (m : CouplingMap S) (h : 1 < blocks.length) :
  ∃ c, Merge.best? (Merge.candidates m blocks) = some c
    ∧ (c.apply blocks).length + 1 = blocks.length
  := by
  have hne : Merge.candidates m blocks ≠ [] := by
    intro hnil
    apply absurd (Merge.candidates_eq_nil_iff.mp hnil) (not_le_of_gt h)
  obtain ⟨c, hc⟩ := Merge.exists_best? hne
  use c, hc
  apply Merge.length_apply
  apply (mem_of_mem_pairsOf (Merge.mem_candidates.mp (Merge.mem_of_best? hc)).1).2

/-- So many steps and then so many more are all of them in a row. -/
theorem agglomerate_add (steps more : Nat) :
  agglomerate m (steps + more) blocks
    = ((agglomerate m steps blocks).1 ++ (agglomerate m more (agglomerate m steps blocks).2).1,
        (agglomerate m more (agglomerate m steps blocks).2).2)
  := by
  induction steps generalizing blocks with
  | zero => rw [Nat.zero_add, agglomerate, List.nil_append]
  | succ steps ih =>
    by_cases h : blocks.length ≤ 1
    · simp only [agglomerate_of_length_le_one h, List.nil_append]
    · obtain ⟨c, hc, -⟩ := exists_best?_of_one_lt_length m (not_le.mp h)
      rw [Nat.add_right_comm, agglomerate_succ hc, agglomerate_succ hc, ih, List.cons_append]

/-- A run makes as many merges as it may, until one block is left. -/
theorem length_agglomerate (steps : Nat) (blocks : List NameSet) :
  (agglomerate m steps blocks).1.length = min steps (blocks.length - 1)
    ∧ (agglomerate m steps blocks).2.length = blocks.length - min steps (blocks.length - 1)
  := by
  induction steps generalizing blocks with
  | zero => simp [agglomerate]
  | succ steps ih =>
    by_cases h : blocks.length ≤ 1
    · rw [agglomerate_of_length_le_one h]
      simp only [List.length_nil]
      omega
    · obtain ⟨c, hc, hlength⟩ := exists_best?_of_one_lt_length m (not_le.mp h)
      obtain ⟨hmerges, hblocks⟩ := ih (c.apply blocks)
      rw [agglomerate_succ hc]
      simp only [List.length_cons]
      omega

/-- What every best merge preserves holds at the end of a run if it holds at its start. -/
theorem agglomerate_invariant {P : List NameSet → Prop}
    (hstep : ∀ blocks c, P blocks → Merge.best? (Merge.candidates m blocks) = some c →
      P (c.apply blocks))
    (steps : Nat) (h : P blocks) :
  P (agglomerate m steps blocks).2
  := by
  induction steps generalizing blocks with
  | zero => apply h
  | succ steps ih =>
    by_cases hlength : blocks.length ≤ 1
    · rw [agglomerate_of_length_le_one hlength]
      apply h
    · obtain ⟨c, hc, -⟩ := exists_best?_of_one_lt_length m (not_le.mp hlength)
      rw [agglomerate_succ hc]
      apply ih (hstep blocks c h hc)

/-- The blocks of the classes of a coupling map after so many merges. -/
def blocksAfter (m : CouplingMap S) (steps : Nat) : List NameSet :=
  (agglomerate m steps (singletons m.classes)).2

/-- Each step leaves one block fewer, as long as there are two. -/
theorem length_blocksAfter (m : CouplingMap S) (steps : Nat) :
  (blocksAfter m steps).length = m.classes.size - min steps (m.classes.size - 1)
  := by
  rw [blocksAfter, (length_agglomerate steps _).2, length_singletons]

/-- After any number of steps the blocks are an ordered partition of the classes. -/
theorem isOrderedPartition_blocksAfter (m : CouplingMap S) (steps : Nat) :
  IsOrderedPartition m.classes (blocksAfter m steps)
  := by
  apply agglomerate_invariant _ steps (isOrderedPartition_singletons m.classes)
  intro blocks c h hc
  apply h.apply
  apply ((Merge.mem_candidates_iff h).mp (Merge.mem_of_best? hc)).1

/-- Clustering takes one merge fewer than there are classes. -/
theorem length_merges (m : CouplingMap S) :
  (cluster m).merges.length = m.classes.size - 1
  := by
  have h := (length_agglomerate (m := m) (m.classes.size - 1) (singletons m.classes)).1
  rw [length_singletons, min_self] at h
  rw [cluster, length_singletons]
  apply h

/-- However many merges are allowed, those that are made begin the merge sequence. -/
theorem agglomerate_merges (m : CouplingMap S) (steps : Nat) :
  (agglomerate m steps (singletons m.classes)).1 = (cluster m).merges.take steps
  := by
  have hmerges : (cluster m).merges
      = (agglomerate m (m.classes.size - 1) (singletons m.classes)).1 := by
    rw [cluster, length_singletons]
  rcases Nat.le_total steps (m.classes.size - 1) with hle | hle
  · obtain ⟨more, hmore⟩ := Nat.exists_eq_add_of_le hle
    have hlength := (length_agglomerate (m := m) steps (singletons m.classes)).1
    rw [length_singletons, min_eq_left hle] at hlength
    rw [hmerges, hmore, agglomerate_add]
    symm
    apply List.take_left' hlength
  · obtain ⟨more, rfl⟩ := Nat.exists_eq_add_of_le hle
    have hone : (blocksAfter m (m.classes.size - 1)).length ≤ 1 := by
      rw [length_blocksAfter]
      omega
    rw [agglomerate_add, ← blocksAfter, agglomerate_of_length_le_one hone, List.append_nil,
      ← hmerges, List.take_of_length_le]
    rw [length_merges]
    apply hle

/-- A step of the merge sequence is the best merge of the blocks before it, and makes the blocks
after it. -/
theorem best?_blocksAfter {step : Nat} (h : step < (cluster m).merges.length) :
  Merge.best? (Merge.candidates m (blocksAfter m step)) = some (cluster m).merges[step]
    ∧ blocksAfter m (step + 1) = (cluster m).merges[step].apply (blocksAfter m step)
  := by
  have hlength : 1 < (blocksAfter m step).length := by
    rw [length_merges] at h
    rw [length_blocksAfter]
    omega
  obtain ⟨c, hc, -⟩ := exists_best?_of_one_lt_length m hlength
  have hadd : agglomerate m (step + 1) (singletons m.classes)
      = ((cluster m).merges.take step ++ [c], c.apply (blocksAfter m step)) := by
    rw [agglomerate_add, agglomerate_merges, ← blocksAfter, agglomerate_succ hc]
    rfl
  have htake : (cluster m).merges.take step ++ [(cluster m).merges[step]]
      = (cluster m).merges.take step ++ [c] := by
    rw [List.take_append_getElem, ← agglomerate_merges, hadd]
  obtain rfl := List.head_eq_of_cons_eq (List.append_cancel_left htake)
  use hc
  rw [blocksAfter, hadd]

/-- Every merge joins two of the blocks before it, at their average link. -/
theorem joinable_merges {step : Nat} (h : step < (cluster m).merges.length) :
  (cluster m).merges[step].Joinable (blocksAfter m step)
    ∧ (cluster m).merges[step].score
      = averageLink m (cluster m).merges[step].left (cluster m).merges[step].right
  := (Merge.mem_candidates_iff (isOrderedPartition_blocksAfter m step)).mp
    (Merge.mem_of_best? (best?_blocksAfter h).1)

/-- Up to their order, the blocks after a step are those before it with both sides replaced. -/
theorem blocksAfter_succ_perm {step : Nat} (h : step < (cluster m).merges.length) :
  (blocksAfter m (step + 1)).Perm (replayStep (blocksAfter m step) (cluster m).merges[step])
  := by
  have hjoinable := (joinable_merges h).1
  rw [(best?_blocksAfter h).2]
  apply Merge.apply_perm (isOrderedPartition_blocksAfter m step).nodup hjoinable.left_mem
  apply hjoinable.left_startsBefore.ne

/-- The classes of a non-empty map end in one block. -/
theorem clusters_eq (m : CouplingMap S) :
  (cluster m).clusters = if m.pairs.isEmpty then [] else [m.classes]
  := by
  have hpartition := isOrderedPartition_blocksAfter m (m.classes.size - 1)
  have hclusters : (cluster m).clusters
      = NameSet.sortBySize (blocksAfter m (m.classes.size - 1)) := by
    rw [cluster, length_singletons]
    rfl
  rw [hclusters]
  split
  · rename_i hempty
    rw [hpartition.eq_nil_iff.mpr (CouplingMap.isEmpty_pairs_iff.mp hempty)]
    apply List.mergeSort_nil
  · rename_i hempty
    have hpos := NameSet.size_pos_iff.mpr (mt CouplingMap.isEmpty_pairs_iff.mpr hempty)
    rw [hpartition.eq_of_length_eq_one]
    · apply List.mergeSort_singleton
    · rw [length_blocksAfter]
      omega

/-- A run over `n` classes makes `n - 1` merges, however many more are allowed.  The blocks before
each merge are an ordered partition of the classes, of which the merge joins two, the one that
starts first on its left; the blocks after it are the same ones with these two replaced by their
union, and at the end all classes are in one block. -/
theorem cluster_partitions (m : CouplingMap S) :
  (∀ x, x ∈ m.classes ↔ ∃ p ∈ m.pairs, x = p.first ∨ x = p.second)
    ∧ (cluster m).merges.length = m.classes.size - 1
    ∧ (∀ steps, (agglomerate m steps (singletons m.classes)).1 = (cluster m).merges.take steps)
    ∧ (∀ steps, IsOrderedPartition m.classes (blocksAfter m steps))
    ∧ (∀ step (h : step < (cluster m).merges.length),
      (cluster m).merges[step].Joinable (blocksAfter m step)
        ∧ blocksAfter m (step + 1) = (cluster m).merges[step].apply (blocksAfter m step)
        ∧ (blocksAfter m (step + 1)).Perm
          (replayStep (blocksAfter m step) (cluster m).merges[step]))
    ∧ (cluster m).clusters = if m.pairs.isEmpty then [] else [m.classes]
  := by
  use fun _ => CouplingMap.mem_classes, length_merges m, agglomerate_merges m,
    isOrderedPartition_blocksAfter m
  constructor
  · intro step h
    use (joinable_merges h).1, (best?_blocksAfter h).2, blocksAfter_succ_perm h
  · apply clusters_eq

/-- The weights of a map may be no numbers, and a class may be paired with itself. -/
theorem cluster_partitions_undefined :
  let m : CouplingMap Float := CouplingMap.ofWeights
    [("A", "A", 1.0), ("C", "A", 0.0 / 0.0), ("B", "C", 0.0 / 0.0)]
  ∃ h : 1 < (cluster m).merges.length,
    (cluster m).merges[1].Joinable (blocksAfter m 1) ∧ (cluster m).clusters = [m.classes]
  := by
  intro m
  have h : 1 < (cluster m).merges.length := by decide +kernel
  obtain ⟨-, -, -, -, hsteps, hclusters⟩ := cluster_partitions m
  use h, (hsteps 1 h).1
  rw [hclusters, if_neg (by decide +kernel)]

end Cohesion
