import Cohesion.Analysis
import Cohesion.Proofs.ClusterTree
import Cohesion.Proofs.Traffic

/-!
# The classes of an analysis

An analysis of facts always exists, and all of its parts are about the same classes.  With two or
more names these are all names, `Analysis.IsAbout`; otherwise nothing can be coupled, and every part
is empty, `Analysis.IsVoid`.
-/

namespace Cohesion

namespace Analysis

/-- Every part of an analysis has exactly the members of `names` for its classes. -/
structure IsAbout (a : Analysis) (names : NameSet) : Prop where
  couplings : a.couplings.classes = names
  clusters : a.clustering.clusters = [names]
  root : ∃ root, a.dendrogram.root? = some root ∧ a.dendrogram.members root = names
  leaves : a.tree.leaves.Perm names.names
  size : a.dendrogram.size = 2 * names.size - 1
  clusters_classCount : ∀ steps, (a.clusters steps).classCount = names.size
  tree_classCount : a.tree.classCount = names.size
  modules_classCount : ∀ point mode, point.isFinite →
    ∃ answer, a.modules point mode = .ok answer ∧ answer.classCount = names.size

/-- No part of an analysis has any classes. -/
structure IsVoid (a : Analysis) : Prop where
  couplings : a.couplings.classes = ∅
  merges : a.clustering.merges = []
  size : a.dendrogram.size = 0
  clusters : ∀ steps, a.clusters steps = ⟨0, 0, [], []⟩
  tree : a.tree = ⟨0, [], none⟩
  modules : ∀ point mode, point.isFinite →
    ∃ answer, a.modules point mode = .ok answer ∧ answer.classCount = 0 ∧ answer.modules = []

/-- How the parts of an analysis depend on the facts and on each other. -/
theorem parts_of_ofFacts {facts : ProjectFacts} {a : Analysis} (h : ofFacts facts = .ok a) :
  a.facts = facts ∧ a.couplings = .ofFacts facts.classes ∧ a.clustering = cluster a.couplings
    ∧ Dendrogram.ofMerges a.clustering.merges = .ok a.dendrogram
  := by
  rw [ofFacts] at h
  split at h
  · cases h
  · rename_i t ht
    cases h
    use rfl, rfl, rfl

/-- The merges of the clustering have a tree, so there is an analysis of any facts. -/
theorem exists_ofFacts (facts : ProjectFacts) :
  ∃ a, ofFacts facts = .ok a ∧ a.couplings = .ofFacts facts.classes
    ∧ a.clustering = cluster a.couplings
    ∧ Dendrogram.ofMerges a.clustering.merges = .ok a.dendrogram
  := by
  obtain ⟨t, ht⟩ := Dendrogram.exists_ofMerges_merges (.ofFacts facts.classes : CouplingMap Float)
  use ⟨facts, .ofFacts facts.classes, cluster (.ofFacts facts.classes), t⟩
  rw [ofFacts, ht]
  use rfl, rfl, rfl

/-- At a finite cut point an analysis always gives its modules. -/
theorem exists_modules_eq_ok (a : Analysis) {point : Float} (h : point.isFinite) (mode : CutMode) :
  ∃ answer, a.modules point mode = .ok answer
    ∧ answer.classCount = a.dendrogram.classCount
    ∧ answer.modules = a.dendrogram.modules a.couplings ⟨point, mode⟩
  := by
  rw [modules, if_pos h]
  apply Exists.intro
  use rfl, rfl

/-- An analysis whose merges have their tree is over the classes of its couplings. -/
theorem isAbout_of_one_lt {a : Analysis} (hclustering : a.clustering = cluster a.couplings)
    (ht : Dendrogram.ofMerges a.clustering.merges = .ok a.dendrogram)
    (h : 1 < a.couplings.classes.size) :
  a.IsAbout a.couplings.classes
  := by
  rw [hclustering] at ht
  obtain ⟨root, hroot, hmembers⟩ := Dendrogram.exists_root h ht
  have hcount : a.dendrogram.classCount = a.couplings.classes.size := by
    rw [Dendrogram.classCount, hroot, ← hmembers]
  have htree : a.tree
      = ⟨a.dendrogram.classCount, a.dendrogram.leaves root, a.dendrogram.view? root⟩ := by
    rw [tree, hroot]
  constructor
  · rfl
  · rw [hclustering, clusters_eq, if_neg]
    rw [CouplingMap.isEmpty_pairs_iff, ← NameSet.size_eq_zero_iff]
    omega
  · use root, hroot
  · rw [htree, ← hmembers]
    apply (Dendrogram.isSound_ofMerges ht).leaves_perm
  · apply Dendrogram.size_tree h ht
  · intro steps
    rfl
  · rw [htree]
    apply hcount
  · intro point mode hpoint
    obtain ⟨answer, hanswer, hclassCount, -⟩ := a.exists_modules_eq_ok hpoint mode
    use answer, hanswer
    rw [hclassCount, hcount]

/-- An analysis without couplings is empty. -/
theorem isVoid_of_eq_empty {a : Analysis} (hclustering : a.clustering = cluster a.couplings)
    (ht : Dendrogram.ofMerges a.clustering.merges = .ok a.dendrogram)
    (h : a.couplings.classes = ∅) :
  a.IsVoid
  := by
  have hmerges : a.clustering.merges = [] := by
    rw [hclustering, ← List.length_eq_zero_iff, length_merges, h]
    rfl
  have hclusters : a.clustering.clusters = [] := by
    rw [hclustering, clusters_eq, if_pos (CouplingMap.isEmpty_pairs_iff.mpr h)]
  have hdendrogram : a.dendrogram = .empty := by
    rw [hmerges] at ht
    apply (Except.ok.inj ht).symm
  have hroot : a.dendrogram.root? = none := by
    rw [hdendrogram]
    rfl
  have hcount : a.dendrogram.classCount = 0 := by
    rw [Dendrogram.classCount, hroot]
  constructor
  · apply h
  · apply hmerges
  · rw [hdendrogram]
    rfl
  · intro steps
    simp only [clusters, hmerges, hclusters, h]
    simp
    rfl
  · rw [tree, hroot, hcount]
  · intro point mode hpoint
    obtain ⟨answer, hanswer, hclassCount, hmodules⟩ := a.exists_modules_eq_ok hpoint mode
    use answer, hanswer
    rw [hclassCount, hmodules, Dendrogram.modules, hroot]
    use hcount

/-- The facts of a project always have an analysis.  All of its parts are about the names of the
facts if there are at least two of them, and about nothing otherwise. -/
theorem ofFacts_isAbout_names (facts : ProjectFacts) :
  let names := NameSet.ofList (facts.classes.map ClassFacts.name)
  ∃ a, ofFacts facts = .ok a ∧ (2 ≤ names.size → a.IsAbout names) ∧ (names.size ≤ 1 → a.IsVoid)
  := by
  intro names
  obtain ⟨a, ha, hcouplings, hclustering, ht⟩ := exists_ofFacts facts
  use a, ha
  constructor
  · intro h
    have hclasses : a.couplings.classes = names := by
      rw [hcouplings, CouplingMap.classes_ofFacts_of_one_lt h]
    rw [← hclasses] at h
    rw [← hclasses]
    apply isAbout_of_one_lt hclustering ht h
  · intro h
    apply isVoid_of_eq_empty hclustering ht
    rw [hcouplings, CouplingMap.classes_ofFacts_of_le_one h]

/-- A name that is declared twice is one class. -/
theorem ofFacts_isAbout_names_declared_twice :
  let facts := ["B", "A", "B"].map fun name => ClassFacts.mk name defaultPackage "" [] [] []
  ∃ a, ofFacts ⟨1, 0, facts⟩ = .ok a ∧ a.IsAbout (NameSet.ofList ["B", "A", "B"])
  := by
  intro facts
  obtain ⟨a, ha, habout, -⟩ := ofFacts_isAbout_names ⟨1, 0, facts⟩
  use a, ha
  apply habout (by decide +kernel)

end Analysis

end Cohesion
