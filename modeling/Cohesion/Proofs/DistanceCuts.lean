import Cohesion.Proofs.ExactLink
import Cohesion.Proofs.Modules

/-!
# Cuts by distance

A cut by distance selects the subtrees whose tops are low.  In the tree of a clustering without
rounding no join of a subtree is lower than its top, so if the top does not pass, nothing below it
does: `Dendrogram.topmost_by_distance`.  Hence such a cut finds one module of all classes or none.
-/

namespace Cohesion

namespace Dendrogram

section

variable {S : Type} [Score S] {t : Dendrogram S} {test : S → Bool} {id top : Nat}

/-- A node with two members or more is a join. -/
theorem IsSound.children_ne_none_of_two_le (ht : t.IsSound) (hid : id < t.size)
    (h : 2 ≤ (t.members id).size) :
  t.children id ≠ none
  := by
  intro hchildren
  obtain ⟨name, hname⟩ := ht.exists_members_eq_singleton hid hchildren
  rw [hname] at h
  apply Nat.not_succ_le_self 1 h

/-- Where no join passes there are no topmost nodes. -/
theorem IsSound.topmost_eq_nil (ht : t.IsSound)
    (h : ∀ id, t.Below id top → t.children id ≠ none → ¬ test (t.height id)) :
  t.topmost test top = []
  := by
  apply List.eq_nil_iff_forall_not_mem.mpr
  intro id hid
  obtain ⟨hbelow, hchildren, hpasses, -⟩ := ht.mem_topmost_iff.mp hid
  apply h id hbelow hchildren hpasses

end

variable {m : CouplingMap ℚ} {t : Dendrogram ℚ} {top root : Nat}

/-- A cut by distance selects a whole subtree or nothing of it. -/
theorem topmost_by_distance (h : ofMerges (cluster m).merges = .ok t)
    (htop : t.children top ≠ none) (k : ℚ) :
  t.topmost (Cut.mk k .distance).passes top = if t.height top ≤ k then [top] else []
  := by
  split
  · rename_i hle
    obtain ⟨⟨l, r⟩, hchildren⟩ := Option.ne_none_iff_exists'.mp htop
    rw [topmost_of_children hchildren]
    apply if_pos (decide_eq_true hle)
  · rename_i hle
    apply (isSound_ofMerges h).topmost_eq_nil
    intro id hbelow hid hpasses
    apply hle
    apply (height_le_of_le h hid htop hbelow.le).trans
    apply of_decide_eq_true hpasses

/-- A cut by distance selects the root or nothing: the root when its height is within the cut and its
cohesion above. -/
theorem moduleNodes_by_distance (h : ofMerges (cluster m).merges = .ok t)
    (hroot : t.root? = some root) (hchildren : t.children root ≠ none) (k : ℚ) :
  t.moduleNodes m ⟨k, .distance⟩
    = if t.height root ≤ k ∧ k < (t.moduleAt m root).cohesion then [root] else []
  := by
  have hnodes : t.moduleNodes m ⟨k, .distance⟩
      = (if t.height root ≤ k then [root] else []).filter fun id =>
        Score.lt k (t.moduleAt m id).cohesion := by
    rw [moduleNodes, hroot, ← topmost_by_distance h hchildren]
    rfl
  rw [hnodes, ite_and]
  split
  · rw [List.filter_singleton, Bool.cond_eq_ite]
    apply if_congr decide_eq_true_iff rfl rfl
  · apply List.filter_nil

end Dendrogram

open Dendrogram

/-- A cut by distance of the tree of two or more classes finds one module, which has all of them, if
the root is at most as high as the point and their mean weight is above it, and none otherwise. -/
theorem modules_by_distance (m : CouplingMap ℚ) (h : 2 ≤ m.classes.size) :
  ∃ t root, ofMerges (cluster m).merges = .ok t ∧ t.root? = some root
    ∧ t.members root = m.classes
    ∧ ∀ k, modulesOfMerges (cluster m).merges m ⟨k, .distance⟩
      = .ok (if t.height root ≤ k ∧ k < meanWeight m m.classes.names
          then [⟨m.classes, meanWeight m m.classes.names⟩] else [])
  := by
  obtain ⟨t, ht⟩ := exists_ofMerges_merges m
  obtain ⟨root, hroot, hmembers⟩ := exists_root h ht
  have hsound := isSound_ofMerges ht
  have hchildren : t.children root ≠ none := by
    apply hsound.children_ne_none_of_two_le (root?_eq_some_iff.mp hroot).lt
    rw [hmembers]
    apply h
  have hmodule : t.moduleAt m root = ⟨m.classes, meanWeight m m.classes.names⟩ := by
    rw [moduleAt, hmembers]
  use t, root, ht, hroot, hmembers
  intro k
  rw [modulesOfMerges_eq ht, hsound.modules_eq, moduleNodes_by_distance ht hroot hchildren, hmodule]
  split
  · rw [List.map_singleton, hmodule, List.mergeSort_singleton]
  · rw [List.map_nil, List.mergeSort_nil]

/-- Three classes in a row are a module between the height of the root and their mean weight. -/
theorem modules_by_distance_row :
  let m : CouplingMap ℚ := CouplingMap.ofWeights [("A", "B", 1), ("B", "C", 1 / 2)]
  let merges := (cluster m).merges
  2 ≤ m.classes.size
    ∧ modulesOfMerges merges m ⟨1 / 8, .distance⟩ = .ok []
    ∧ modulesOfMerges merges m ⟨1 / 4, .distance⟩ = .ok [⟨m.classes, 1 / 2⟩]
    ∧ modulesOfMerges merges m ⟨1 / 2, .distance⟩ = .ok []
  := by
  intro m merges
  have hsize : 2 ≤ m.classes.size := by decide +kernel
  have hmerges : merges = [⟨.singleton "A", .singleton "B", 1⟩,
      ⟨.ofList ["A", "B"], .singleton "C", 1 / 4⟩] := by
    decide +kernel
  have hmean : meanWeight m m.classes.names = 1 / 2 := by decide +kernel
  obtain ⟨t, root, ht, hroot, -, hmodules⟩ := modules_by_distance m hsize
  have hheight : t.height root = 1 / 4 := by
    obtain ⟨t', ht', hroot', hheight⟩ : ∃ t, ofMerges merges = .ok t ∧ t.root? = some 4
        ∧ t.height 4 = 1 / 4 := by
      rw [hmerges]
      refine ⟨_, rfl, rfl, rfl⟩
    obtain rfl := Except.ok.inj (ht.symm.trans ht')
    obtain rfl := Option.some.inj (hroot.symm.trans hroot')
    apply hheight
  simp only [hheight, hmean] at hmodules
  use hsize
  constructor
  · rw [hmodules, if_neg (by decide +kernel)]
  · constructor
    · rw [hmodules, if_pos (by decide +kernel)]
    · rw [hmodules, if_neg (by decide +kernel)]

end Cohesion
