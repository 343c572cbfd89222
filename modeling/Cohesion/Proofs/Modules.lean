import Cohesion.Module
import Cohesion.Proofs.Encoding
import Cohesion.Proofs.FloatOrder
import Cohesion.Proofs.Topmost

/-!
# The modules at a cut

`t.moduleNodes m c` are the nodes whose modules are reported, from left to right: the topmost nodes
below the root that pass the cut and whose classes are more cohesive than its point.  As there are at
most half as many of them as classes under the root, the limit on the number of modules never takes
one away: `Dendrogram.IsSound.modules_eq`.  In the tree of a merge sequence every ancestor of a node
below the root is below the root, so `t.IsModuleNode m c` says which nodes these are without a walk.
-/

namespace Cohesion

variable {S : Type} [Score S]

namespace Module

/-- Larger modules first, and modules of one size in the order of their keys. -/
def tieOrder (a b : Module S) : Ordering :=
  (compare b.classes.size a.classes.size).then (compare a.classes.key b.classes.key)

instance : Std.TransCmp (tieOrder (S := S)) :=
  inferInstanceAs (Std.TransCmp (compareLex
    (fun a b => compareOn (fun c : Module S => c.classes.size) b a)
    (compareOn fun c : Module S => c.classes.key)))

theorem comesBefore_eq :
  comesBefore (S := S) = Score.higherFirst cohesion tieOrder
  := rfl

omit [Score S] in
/-- Of modules of one cohesion the larger come first, and those of one size in the order of their
keys. -/
theorem isLE_tieOrder_iff {a b : Module S} :
  (tieOrder a b).isLE ↔ b.classes.size < a.classes.size
    ∨ a.classes.size = b.classes.size ∧ a.classes.key ≤ b.classes.key
  := by
  rw [tieOrder, Ordering.isLE_then_iff_or, compare_lt_iff_lt, compare_eq_iff_eq,
    ← Ordering.ne_gt_iff_isLE, ← ne_eq, compare_le_iff_le, eq_comm]

/-- Modules are listed by descending cohesion, then by descending size, then by ascending key. -/
def Precedes (a b : Module Float) : Prop :=
  b.cohesion < a.cohesion ∨ a.cohesion == b.cohesion
    ∧ (b.classes.size < a.classes.size
      ∨ a.classes.size = b.classes.size ∧ a.classes.key ≤ b.classes.key)

/-- Modules whose cohesions are numbers are ordered as the precedence says. -/
theorem comesBefore_iff_precedes {a b : Module Float} (ha : a.cohesion.isNaN = false)
    (hb : b.cohesion.isNaN = false) :
  a.comesBefore b ↔ a.Precedes b
  := by
  rw [comesBefore_eq, Score.higherFirst_iff Score.isTotalOn_float ha hb, isLE_tieOrder_iff,
    Precedes, FloatOrder.beq_iff_le_and_le ha hb]
  simp only [Score.lt, Score.le, decide_eq_true_eq]

end Module

namespace Dendrogram

variable {t : Dendrogram S} {m : CouplingMap S} {c : Cut S}

/-! ### The nodes of the modules -/

/-- The topmost nodes below the root that pass a cut and are more cohesive than its point. -/
def moduleNodes (t : Dendrogram S) (m : CouplingMap S) (c : Cut S) : List Nat :=
  match t.root? with
  | none => []
  | some root => (t.topmost c.passes root).filter fun id =>
      Score.lt c.point (meanWeight m (t.members id).names)

/-- The module of the classes of a node. -/
def moduleAt (t : Dendrogram S) (m : CouplingMap S) (id : Nat) : Module S :=
  ⟨t.members id, meanWeight m (t.members id).names⟩

/-- The nodes of modules are the topmost ones that pass and whose cohesion is above the cut point. -/
theorem mem_moduleNodes {root : Nat} (ht : t.IsSound) (hroot : t.root? = some root) {id : Nat} :
  id ∈ t.moduleNodes m c
    ↔ t.IsTopmost c.passes root id ∧ Score.lt c.point (t.moduleAt m id).cohesion
  := by
  rw [moduleNodes, hroot, List.mem_filter, ht.mem_topmost_iff]
  rfl

/-- The nodes of modules are topmost nodes in their order. -/
theorem moduleNodes_sublist {root : Nat} (hroot : t.root? = some root) :
  (t.moduleNodes m c).Sublist (t.topmost c.passes root)
  := by
  rw [moduleNodes, hroot]
  apply List.filter_sublist

/-- No node gives two modules. -/
theorem IsSound.nodup_moduleNodes (ht : t.IsSound) :
  (t.moduleNodes m c).Nodup
  := by
  cases hroot : t.root? with
  | none =>
    rw [moduleNodes, hroot]
    apply List.nodup_nil
  | some root => apply (ht.nodup_topmost c.passes root).sublist (moduleNodes_sublist hroot)

/-- There are at most half as many modules as classes. -/
theorem IsSound.length_moduleNodes_le (ht : t.IsSound) :
  (t.moduleNodes m c).length ≤ t.classCount / 2
  := by
  cases hroot : t.root? with
  | none =>
    rw [moduleNodes, hroot]
    apply Nat.zero_le
  | some root =>
    have hlength := (moduleNodes_sublist (m := m) (c := c) hroot).length_le
    have htwo := ht.two_mul_length_topmost_le c.passes root
    have hcount : t.classCount = (t.members root).size := by rw [classCount, hroot]
    omega

/-- The limit on the number of modules takes none away. -/
theorem IsSound.modules_eq (ht : t.IsSound) :
  t.modules m c = ((t.moduleNodes m c).map (t.moduleAt m)).mergeSort Module.comesBefore
  := by
  have hlength := ht.length_moduleNodes_le (m := m) (c := c)
  cases hroot : t.root? with
  | none =>
    rw [modules, moduleNodes, hroot]
    simp
  | some root =>
    have hfound : (t.topmost c.passes root).filterMap (fun id => moduleOf? m c.point (t.members id))
        = (t.moduleNodes m c).map (t.moduleAt m) := by
      rw [moduleNodes, hroot, ← List.filterMap_eq_map, List.filterMap_filter]
      rfl
    rw [modules, hroot]
    simp only [hfound]
    apply List.take_of_length_le
    rw [List.length_mergeSort, List.length_map, maxModules]
    omega

/-- The modules are those of the selected nodes, in some order. -/
theorem IsSound.modules_perm (ht : t.IsSound) :
  (t.modules m c).Perm ((t.moduleNodes m c).map (t.moduleAt m))
  := by
  rw [ht.modules_eq]
  apply List.mergeSort_perm

/-- A module is listed exactly when a selected node gives it. -/
theorem IsSound.mem_modules (ht : t.IsSound) {a : Module S} :
  a ∈ t.modules m c ↔ ∃ id ∈ t.moduleNodes m c, t.moduleAt m id = a
  := by
  rw [ht.modules_perm.mem_iff, List.mem_map]

/-- Different modules have no common classes. -/
theorem IsSound.pairwise_disjoint_modules (ht : t.IsSound) :
  (t.modules m c).Pairwise fun a b => a.classes.Disjoint b.classes
  := by
  apply (ht.modules_perm.pairwise_iff NameSet.Disjoint.symm).mpr
  apply List.pairwise_map.mpr
  cases hroot : t.root? with
  | none =>
    rw [moduleNodes, hroot]
    apply List.Pairwise.nil
  | some root =>
    apply (ht.pairwise_disjoint_topmost c.passes root).sublist (moduleNodes_sublist hroot)

/-- No class is in two modules. -/
theorem IsSound.eq_of_mem_modules (ht : t.IsSound) {i j : Fin (t.modules m c).length} {x : String}
    (hi : x ∈ (t.modules m c)[i].classes) (hj : x ∈ (t.modules m c)[j].classes) :
  i = j
  := by
  have hdisjoint := List.pairwise_iff_getElem.mp (ht.pairwise_disjoint_modules (m := m) (c := c))
  by_contra hne
  rcases Nat.lt_or_gt_of_ne (Fin.val_ne_of_ne hne) with hlt | hlt
  · apply hdisjoint i j i.isLt j.isLt hlt x hi hj
  · apply hdisjoint j i j.isLt i.isLt hlt x hj hi

/-! ### Which nodes these are -/

/-- `id` is a join in the subtree at the root, it passes the cut, none of its ancestors does, and its
classes are more cohesive than the point. -/
structure IsModuleNode (t : Dendrogram S) (m : CouplingMap S) (c : Cut S) (id : Nat) : Prop where
  below_root : ∃ root ∈ t.root?, t.Below id root
  children_ne_none : t.children id ≠ none
  passes : c.passes (t.height id)
  not_passes : ∀ a, t.StrictlyBelow id a → ¬ c.passes (t.height a)
  cohesive : Score.lt c.point (t.moduleAt m id).cohesion

/-- The walk from the root of the tree of a merge sequence looks at all ancestors. -/
theorem mem_moduleNodes_iff {merges : List (Merge S)} (h : ofMerges merges = .ok t) {id : Nat} :
  id ∈ t.moduleNodes m c ↔ t.IsModuleNode m c id
  := by
  have ht := isSound_ofMerges h
  cases hroot : t.root? with
  | none =>
    rw [moduleNodes, hroot]
    constructor
    · intro hid
      apply absurd hid List.not_mem_nil
    · rintro ⟨⟨root, hroot', -⟩, -⟩
      rw [hroot] at hroot'
      cases hroot'
  | some root =>
    rw [mem_moduleNodes ht hroot]
    constructor
    · rintro ⟨⟨hbelow, hchildren, hpasses, hnot⟩, hcohesive⟩
      use ⟨root, hroot, hbelow⟩, hchildren, hpasses
      intro a ha
      apply hnot a _ ha
      apply hbelow.of_not_isChild (parent_unique_ofMerges h) (ht.not_isChild_root hroot) ha.below
    · rintro ⟨⟨root', hroot', hbelow⟩, hchildren, hpasses, hnot, hcohesive⟩
      rw [hroot] at hroot'
      cases hroot'
      apply And.intro ⟨hbelow, hchildren, hpasses, fun a _ => hnot a⟩ hcohesive

/-- An accepted sequence has the modules of its dendrogram. -/
theorem modulesOfMerges_eq {merges : List (Merge S)} (h : ofMerges merges = .ok t)
    (m : CouplingMap S) (c : Cut S) :
  modulesOfMerges merges m c = .ok (t.modules m c)
  := by
  rw [modulesOfMerges, h]

end Dendrogram

open Dendrogram

/-- The modules at a cut of the tree of a merge sequence are those of the nodes that are joins in the
subtree at the root, pass the cut below ancestors that fail it, and are more cohesive than the point,
each of them once.  There are at most half as many as classes under the root, so the limit takes none
away.  They have no common classes and two classes at least, and stand in the order of
`Module.Precedes`. -/
theorem modulesOfMerges_complete {merges : List (Merge Float)} {t : Dendrogram Float}
    (h : ofMerges merges = .ok t) (m : CouplingMap Float) (c : Cut Float) :
  ∃ (found : List (Module Float)) (ids : List Nat),
    modulesOfMerges merges m c = .ok found
    ∧ ids.Nodup ∧ (∀ id, id ∈ ids ↔ t.IsModuleNode m c id)
    ∧ found.Perm (ids.map fun id => ⟨t.members id, meanWeight m (t.members id).names⟩)
    ∧ ids.length ≤ max 1 (t.classCount / 2)
    ∧ found.Pairwise (fun a b => a.classes.Disjoint b.classes)
    ∧ (∀ a ∈ found, 2 ≤ a.classes.size)
    ∧ found.Pairwise Module.Precedes
  := by
  have ht := isSound_ofMerges h
  have hmem {a : Module Float} (ha : a ∈ t.modules m c) :
      ∃ id, t.IsModuleNode m c id ∧ t.moduleAt m id = a := by
    obtain ⟨id, hid, ha⟩ := ht.mem_modules.mp ha
    use id, (mem_moduleNodes_iff h).mp hid
  have hnumber : ∀ a ∈ t.modules m c, a.cohesion.isNaN = false := by
    intro a ha
    obtain ⟨id, hid, rfl⟩ := hmem ha
    -- A cohesion above the cut point is a number, so that the order of modules is total.
    apply FloatOrder.isNaN_of_lt (of_decide_eq_true hid.cohesive)
  use t.modules m c, t.moduleNodes m c, modulesOfMerges_eq h m c, ht.nodup_moduleNodes,
    fun id => mem_moduleNodes_iff h, ht.modules_perm
  constructor
  · apply ht.length_moduleNodes_le.trans (Nat.le_max_right 1 _)
  · use ht.pairwise_disjoint_modules
    constructor
    · intro a ha
      obtain ⟨id, hid, rfl⟩ := hmem ha
      apply ht.two_le_size hid.children_ne_none
    · have hsorted : (t.modules m c).Pairwise fun a b => a.comesBefore b := by
        rw [ht.modules_eq, Module.comesBefore_eq]
        apply Score.pairwise_mergeSort_higherFirst Score.isTotalOn_float
        intro a ha
        apply hnumber a (ht.modules_perm.mem_iff.mpr ha)
      apply hsorted.imp_of_mem
      intro a b ha hb hab
      apply (Module.comesBefore_iff_precedes (hnumber a ha) (hnumber b hb)).mp hab

/-- Four classes that are merged in two pairs have two modules at most. -/
theorem modulesOfMerges_complete_two_pairs :
  let ab := NameSet.ofList ["A", "B"]
  let cd := NameSet.ofList ["C", "D"]
  let merges : List (Merge Float) :=
    [⟨.singleton "C", .singleton "D", 0.5⟩, ⟨.singleton "A", .singleton "B", 0.5⟩, ⟨ab, cd, 0.125⟩]
  let m : CouplingMap Float :=
    CouplingMap.ofWeights [("A", "B", 0.5), ("C", "D", 0.5), ("B", "C", 0.5)]
  ∃ found, modulesOfMerges merges m ⟨0.25, .similarity⟩ = .ok found ∧ found.length ≤ 2
    ∧ found.Pairwise (fun a b => a.classes.Disjoint b.classes) ∧ found.Pairwise Module.Precedes
  := by
  intro ab cd merges m
  obtain ⟨t, ht, hcount⟩ : ∃ t, ofMerges merges = .ok t ∧ t.classCount = 4 := ⟨_, rfl, rfl⟩
  obtain ⟨found, ids, hfound, -, -, hperm, hlength, hdisjoint, -, hsorted⟩ :=
    modulesOfMerges_complete ht m ⟨0.25, .similarity⟩
  use found, hfound
  constructor
  · rw [hperm.length_eq, List.length_map]
    rw [hcount] at hlength
    apply hlength
  · use hdisjoint

end Cohesion
