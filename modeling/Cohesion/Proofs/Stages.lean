import Cohesion.Proofs.Analysis
import Cohesion.Proofs.Replay

/-!
# The stages of a clustering

A question for the partition after some merges is answered by replaying them, and a question for the
last one by the partition in which the run ended.  The replay of the merges of a run has the blocks
of the run at every stage, and at the end both are the one block of all classes or nothing, so the
two ways agree: `clusters_eq_replay`.  Every answer is therefore that of a replay.
-/

namespace Cohesion

/-! ### Replays of a run -/

section

variable {S : Type} [Score S]

omit [Score S] in
/-- There are no merges to be replayed beyond the last one. -/
theorem replay_min (classes : NameSet) (merges : List (Merge S)) (steps : Nat) :
  replay classes merges (min steps merges.length) = replay classes merges steps
  := by
  rw [replay, replay, ← List.take_eq_take_min]

/-- The replay of a run has the blocks of the run. -/
theorem replay_merges_perm (m : CouplingMap S) (steps : Nat) :
  (replay m.classes (cluster m).merges steps).Perm (blocksAfter m steps)
  := by
  apply (replay_perm _ _ _).trans
  symm
  apply blocksAfter_perm

/-- After any number of steps the replayed merges of a clustering leave a partition of its classes. -/
theorem isPartition_replay_merges (m : CouplingMap S) (steps : Nat) :
  IsPartition m.classes (replay m.classes (cluster m).merges steps)
  := (isOrderedPartition_blocksAfter m steps).toIsPartition.perm (replay_merges_perm m steps).symm

/-- Every merge that is replayed leaves one block less. -/
theorem length_replay_merges (m : CouplingMap S) (steps : Nat) :
  (replay m.classes (cluster m).merges steps).length + min steps (cluster m).merges.length
    = m.classes.size
  := by
  rw [(replay_merges_perm m steps).length_eq, length_blocksAfter, length_merges]
  omega

/-- The partition in which a run ends is that of the replay of all its merges. -/
theorem clusters_eq_replay (m : CouplingMap S) {steps : Nat}
    (h : (cluster m).merges.length ≤ steps) :
  (cluster m).clusters = replay m.classes (cluster m).merges steps
  := by
  have hpartition := isPartition_replay_merges m steps
  have hlength := length_replay_merges m steps
  rw [min_eq_right h, length_merges] at hlength
  rw [clusters_eq]
  split
  · rename_i hempty
    symm
    apply hpartition.eq_nil_iff.mpr
    apply CouplingMap.isEmpty_pairs_iff.mp hempty
  · rename_i hempty
    have hpos := NameSet.size_pos_iff.mpr (mt CouplingMap.isEmpty_pairs_iff.mpr hempty)
    symm
    apply hpartition.eq_of_length_eq_one
    omega

end

/-! ### Answers of an analysis -/

namespace Analysis

/-- An answer gives the partition of an analysis after `steps` merges, or after all if no number is
given or there are fewer: it reports how many these are, its blocks are those of their replay, and
every one of them leaves one block less than there are classes. -/
structure IsStage (a : Analysis) (steps : Option Nat) (answer : ClustersAnswer) : Prop where
  merges_eq : answer.merges = a.clustering.merges
  steps_eq : answer.steps = min (steps.getD answer.merges.length) answer.merges.length
  clusters_eq : answer.clusters = replay a.couplings.classes answer.merges answer.steps
  clusters_eq_getD :
    answer.clusters = replay a.couplings.classes answer.merges (steps.getD answer.merges.length)
  classCount_eq : answer.classCount = a.couplings.classes.size
  length_clusters : answer.clusters.length + answer.steps = answer.classCount

/-- The clusters answered are those of the replay up to the steps that are reported. -/
theorem clusters_eq_replay_steps {a : Analysis} (h : a.clustering = cluster a.couplings)
    (steps : Option Nat) :
  (a.clusters steps).clusters
    = replay a.couplings.classes a.clustering.merges (a.clusters steps).steps
  := by
  simp only [clusters]
  split
  · rename_i hall
    rw [hall, h]
    apply clusters_eq_replay _ (le_refl _)
  · rfl

/-- The answer to a question for clusters is a stage of the clustering. -/
theorem isStage_clusters {a : Analysis} (h : a.clustering = cluster a.couplings)
    (steps : Option Nat) :
  a.IsStage steps (a.clusters steps)
  := by
  have hclusters := clusters_eq_replay_steps h steps
  constructor
  · rfl
  · rfl
  · apply hclusters
  · rw [hclusters]
    apply replay_min
  · rfl
  · have hlength := length_replay_merges a.couplings (a.clusters steps).steps
    have hle : (a.clusters steps).steps ≤ (cluster a.couplings).merges.length := by
      rw [← h]
      apply min_le_right
    rw [min_eq_left hle] at hlength
    rw [hclusters, h]
    apply hlength

/-- Every question for the partition of an analysis after some merges is answered by the replay. -/
theorem ofFacts_answers_stages (facts : ProjectFacts) :
  ∃ a, ofFacts facts = .ok a ∧ ∀ steps, a.IsStage steps (a.clusters steps)
  := by
  obtain ⟨a, ha, -, hclustering, -⟩ := exists_ofFacts facts
  use a, ha
  apply isStage_clusters hclustering

end Analysis

end Cohesion
