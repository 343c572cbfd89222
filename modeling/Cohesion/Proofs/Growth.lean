import Cohesion.Analysis
import Cohesion.Proofs.Partition
import Mathlib.Order.Nat

/-!
# Which merge sequences have a dendrogram

A merge fits a list of blocks when its sides are two of them without common members.  While a
dendrogram grows its current clusters are the blocks of the merges made so far, so a merge is made
when it fits these blocks and refused otherwise: `Dendrogram.Growth.join_eq_error_iff`.
`Dendrogram.replayed` are the blocks of the names that a whole sequence mentions, and a sequence has
a dendrogram when each of its merges fits the blocks before it.
-/

namespace Cohesion

variable {S : Type}

/-! ### Merges that fit -/

/-- Both sides of a merge are blocks, and they have no common members. -/
structure Merge.Fits (m : Merge S) (blocks : List NameSet) : Prop where
  left_mem : m.left ∈ blocks
  right_mem : m.right ∈ blocks
  disjoint : m.left.Disjoint m.right

/-- Why a merge does not fit: the first of the reasons that apply. -/
def Merge.fault? (m : Merge S) (blocks : List NameSet) : Option MergeFault :=
  if ¬ m.left.Disjoint m.right then some (.sidesOverlap m.left m.right)
  else if m.left ∉ blocks then some (.notACluster m.left)
  else if m.right ∉ blocks then some (.notACluster m.right)
  else none

/-- A merge has no fault exactly when it fits the blocks there are. -/
theorem Merge.fault?_eq_none_iff {m : Merge S} {blocks : List NameSet} :
  m.fault? blocks = none ↔ m.Fits blocks
  := by
  rw [fault?]
  constructor
  · intro h
    split at h
    · cases h
    · split at h
      · cases h
      · split at h
        · cases h
        · rename_i hdisjoint hleft hright
          use not_not.mp hleft, not_not.mp hright, not_not.mp hdisjoint
  · rintro ⟨hleft, hright, hdisjoint⟩
    rw [if_neg (not_not.mpr hdisjoint), if_neg (not_not.mpr hleft), if_neg (not_not.mpr hright)]

namespace Dendrogram

/-- The names that a sequence mentions are the members of what its merges make. -/
theorem mem_mentioned {merges : List (Merge S)} {x : String} :
  x ∈ mentioned merges ↔ ∃ m ∈ merges, x ∈ m.merged
  := by
  simp only [mentioned, List.mem_flatMap, List.mem_append, NameSet.mem_names, Merge.merged,
    NameSet.mem_union]

/-- The blocks of the names that a merge sequence mentions, after so many of its merges. -/
def replayed (merges : List (Merge S)) (steps : Nat) : List NameSet :=
  (merges.take steps).foldl replayStep (singletons (NameSet.ofList (mentioned merges)))

/-- The merge of a sequence at this step, if there is one, fits the blocks before it. -/
def FitsAt (merges : List (Merge S)) (step : Nat) : Prop :=
  ∀ m ∈ merges[step]?, m.Fits (replayed merges step)

/-- The node of a class. -/
def Node.leaf [Score S] (name : String) : Node S :=
  ⟨.singleton name, Score.zero, 0, none⟩

namespace Growth

/-! ### Current clusters -/

/-- A cluster is found exactly when it is among the current ones. -/
theorem exists_find?_iff {current : List (NameSet × Nat)} {set : NameSet} :
  (∃ id, find? current set = some id) ↔ set ∈ current.map Prod.fst
  := by
  constructor
  · rintro ⟨id, h⟩
    apply List.mem_map.mpr
    use (set, id), mem_of_find? h
  · intro h
    obtain ⟨e, he, rfl⟩ := List.mem_map.mp h
    rw [← Option.isSome_iff_exists, find?, Option.isSome_map, List.find?_isSome]
    use e, he
    apply decide_eq_true rfl

/-- No cluster is found exactly when it is not among the current ones. -/
theorem find?_eq_none_iff {current : List (NameSet × Nat)} {set : NameSet} :
  find? current set = none ↔ set ∉ current.map Prod.fst
  := by
  rw [← exists_find?_iff, ← Option.isSome_iff_exists, Option.not_isSome_iff_eq_none]

/-- The sets that have a node. -/
def clusters (g : Growth S) : List NameSet :=
  g.current.map Prod.fst

/-- The clusters without a set are the clusters other than it. -/
theorem clusters_without (current : List (NameSet × Nat)) (set : NameSet) :
  (without current set).map Prod.fst = (current.map Prod.fst).filter (· ≠ set)
  := by
  rw [List.filter_map]
  rfl

/-! ### One merge -/

/-- A merge that is refused does not fit the current clusters, and the fault says why. -/
theorem join_eq_error_iff {g : Growth S} {blocks : List NameSet} (hg : g.clusters.Perm blocks)
    (hblocks : ∀ b ∈ blocks, b ≠ ∅) {m : Merge S} {fault : MergeFault} :
  g.join m = .error fault ↔ m.fault? blocks = some fault
  := by
  have hleft : find? g.current m.left = none ↔ m.left ∉ blocks := by
    rw [find?_eq_none_iff, ← clusters, hg.mem_iff]
  -- The left side is taken away before the right one is looked up.
  have hright (hdisjoint : m.left.Disjoint m.right) :
      find? (without g.current m.left) m.right = none ↔ m.right ∉ blocks := by
    rw [find?_eq_none_iff, clusters_without, ← clusters, List.mem_filter, hg.mem_iff,
      decide_eq_true_iff, not_iff_not]
    apply and_iff_left_of_imp
    intro hmem heq
    rw [heq] at hdisjoint hmem
    apply hblocks m.left hmem hdisjoint.eq_empty
  rw [join, Merge.fault?]
  by_cases hdisjoint : m.left.Disjoint m.right
  · rw [if_pos hdisjoint, if_neg (not_not.mpr hdisjoint)]
    split
    · rename_i hl
      rw [if_pos (hleft.mp hl), Except.error.injEq, Option.some.injEq]
    · rename_i l hl
      rw [if_neg (by rw [← hleft, hl]; simp)]
      split
      · rename_i hr
        rw [if_pos ((hright hdisjoint).mp hr), Except.error.injEq, Option.some.injEq]
      · rename_i r hr
        rw [if_neg (by rw [← hright hdisjoint, hr]; simp)]
        simp
  · rw [if_neg hdisjoint, if_pos hdisjoint, Except.error.injEq, Option.some.injEq]

/-- A growth accepts a merge exactly when it fits its clusters. -/
theorem exists_join_iff {g : Growth S} {blocks : List NameSet} (hg : g.clusters.Perm blocks)
    (hblocks : ∀ b ∈ blocks, b ≠ ∅) {m : Merge S} :
  (∃ g', g.join m = .ok g') ↔ m.Fits blocks
  := by
  rw [← Merge.fault?_eq_none_iff, Option.eq_none_iff_forall_ne_some]
  simp only [ne_eq, ← join_eq_error_iff hg hblocks]
  cases g.join m with
  | error fault => simp
  | ok g' => simp

/-- What a merge that is made does: it takes the nodes of its two sides away and adds their
parent. -/
structure Joins (g : Growth S) (m : Merge S) (g' : Growth S) (l r : Nat) : Prop where
  left_lt : l < g.nodes.size
  right_lt : r < g.nodes.size
  left_mem : (m.left, l) ∈ g.current
  right_mem : (m.right, r) ∈ g.current
  disjoint : m.left.Disjoint m.right
  nodes : g'.nodes = g.nodes.push
    ⟨m.merged, m.score, 1 + max g.nodes[l].depth g.nodes[r].depth, some (l, r)⟩
  current : g'.current
    = (m.merged, g.nodes.size) :: without (without g.current m.left) m.right

/-- A merge that is made joins two nodes. -/
theorem exists_joins {g g' : Growth S} {m : Merge S} (h : g.join m = .ok g') :
  ∃ l r, g.Joins m g' l r
  := by
  rw [join] at h
  split at h
  · rename_i hdisjoint
    split at h
    · cases h
    · rename_i l hl
      split at h
      · cases h
      · rename_i r hr
        cases h
        use l, r
        constructor
        · apply mem_of_find? hl
        · apply mem_of_mem_without (mem_of_find? hr)
        · apply hdisjoint
        · rfl
        · rfl
  · cases h

/-- A merge that is made makes of the current clusters what it makes of the blocks. -/
theorem Joins.clusters_perm {g g' : Growth S} {m : Merge S} {l r : Nat} (h : g.Joins m g' l r)
    {blocks : List NameSet} (hg : g.clusters.Perm blocks) :
  g'.clusters.Perm (replayStep blocks m)
  := by
  rw [clusters, h.current, List.map_cons, clusters_without, clusters_without, List.filter_filter,
    ← clusters, replayStep]
  apply List.Perm.trans _ List.perm_append_comm
  apply List.Perm.cons
  rw [List.filter_congr (q := fun b => decide (b ≠ m.left ∧ b ≠ m.right))]
  · apply hg.filter
  · intro b hb
    rw [Bool.decide_and, Bool.and_comm]

/-! ### All merges -/

/-- A first merge that is refused ends the sequence with its fault. -/
theorem joinAll_cons_of_eq_error {g : Growth S} {m : Merge S} {fault : MergeFault}
    (h : g.join m = .error fault) (step : Nat) (ms : List (Merge S)) :
  g.joinAll step (m :: ms) = .error (step, fault)
  := by
  rw [joinAll, h]

/-- After a first merge that is accepted the sequence goes on with the rest. -/
theorem joinAll_cons_of_eq_ok {g g' : Growth S} {m : Merge S} (h : g.join m = .ok g') (step : Nat)
    (ms : List (Merge S)) :
  g.joinAll step (m :: ms) = g'.joinAll (step + 1) ms
  := by
  rw [joinAll, h]

/-- The step of a fault is counted on from the number of the first merge. -/
theorem le_of_joinAll_eq_error {g : Growth S} {ms : List (Merge S)} {step k : Nat}
    {fault : MergeFault} (h : g.joinAll step ms = .error (k, fault)) :
  step ≤ k
  := by
  induction ms generalizing g step with
  | nil => cases h
  | cons m ms ih =>
    cases hjoin : g.join m with
    | error fault' =>
      rw [joinAll_cons_of_eq_error hjoin] at h
      cases h
      apply le_refl
    | ok g' =>
      rw [joinAll_cons_of_eq_ok hjoin] at h
      apply Nat.le_of_succ_le (ih h)

/-- Merges are refused at the first one that does not fit the blocks before it. -/
theorem joinAll_eq_error_iff {g : Growth S} {classes : NameSet} {blocks : List NameSet}
    (hg : g.clusters.Perm blocks) (hblocks : IsPartition classes blocks) (ms : List (Merge S))
    (step k : Nat) (fault : MergeFault) :
  g.joinAll step ms = .error (step + k, fault)
    ↔ (∃ m ∈ ms[k]?, m.fault? ((ms.take k).foldl replayStep blocks) = some fault)
      ∧ ∀ j < k, ∀ m ∈ ms[j]?, m.Fits ((ms.take j).foldl replayStep blocks)
  := by
  induction ms generalizing g blocks step k with
  | nil => simp [joinAll]
  | cons m ms ih =>
    cases hjoin : g.join m with
    | error fault' =>
      rw [joinAll_cons_of_eq_error hjoin]
      have hfault := (join_eq_error_iff hg hblocks.ne_empty).mp hjoin
      cases k with
      | zero => simp [hfault]
      | succ k =>
        constructor
        · intro h
          simp only [Except.error.injEq, Prod.mk.injEq] at h
          omega
        · rintro ⟨-, h⟩
          have hfits := Merge.fault?_eq_none_iff.mpr (h 0 (Nat.succ_pos k) m rfl)
          rw [List.take_zero, List.foldl_nil, hfault] at hfits
          cases hfits
    | ok g' =>
      rw [joinAll_cons_of_eq_ok hjoin]
      have hfits := (exists_join_iff hg hblocks.ne_empty).mp ⟨g', hjoin⟩
      obtain ⟨l, r, hjoins⟩ := exists_joins hjoin
      cases k with
      | zero =>
        -- A later merge is never refused with the number of this one.
        constructor
        · intro h
          apply absurd (le_of_joinAll_eq_error h) (Nat.not_succ_le_self step)
        · rintro ⟨⟨m', hm', hfault⟩, -⟩
          obtain rfl : m = m' := Option.some.inj hm'
          rw [List.take_zero, List.foldl_nil, Merge.fault?_eq_none_iff.mpr hfits] at hfault
          cases hfault
      | succ k =>
        -- The current clusters are now the blocks that `m` leaves.
        have ih := ih (hjoins.clusters_perm hg)
          (hblocks.replayStep hfits.left_mem hfits.right_mem) (step + 1) k
        rw [Nat.succ_add_eq_add_succ] at ih
        apply ih.trans
        apply and_congr_right
        rintro -
        rw [Nat.forall_lt_succ_left]
        symm
        apply and_iff_right
        intro m' hm'
        obtain rfl : m = m' := Option.some.inj hm'
        apply hfits

/-! ### Leaves -/

variable [Score S]

/-- A leaf for every name of a list, and nothing else. -/
def ofNames (xs : List String) : Growth S :=
  xs.foldl addLeaf start

/-- So far only leaves have grown, one for each of `names`. -/
structure Leaves (g : Growth S) (names : List String) : Prop where
  nodup : names.Nodup
  nodes : g.nodes.toList = names.map .leaf
  clusters : g.clusters.Perm (names.map NameSet.singleton)

theorem leaves_start :
  (start : Growth S).Leaves []
  := ⟨.nil, rfl, .nil⟩

/-- The single clusters are those of the names the leaves stand for. -/
theorem mem_clusters_singleton {g : Growth S} {names : List String} (h : g.Leaves names)
    {x : String} :
  .singleton x ∈ g.clusters ↔ x ∈ names
  := by
  rw [h.clusters.mem_iff, List.mem_map]
  constructor
  · rintro ⟨y, hy, heq⟩
    obtain rfl : y = x := by
      rw [← NameSet.mem_singleton, ← heq, NameSet.mem_singleton]
    apply hy
  · intro hx
    use x

/-- Adding a leaf adds its name to the leaves, unless it is there. -/
theorem Leaves.addLeaf {g : Growth S} {names : List String} (h : g.Leaves names) (x : String) :
  (g.addLeaf x).Leaves (if x ∈ names then names else names ++ [x])
  := by
  by_cases hx : x ∈ names
  · obtain ⟨id, hid⟩ := exists_find?_iff.mpr ((mem_clusters_singleton h).mpr hx)
    rw [if_pos hx, Growth.addLeaf, hid]
    apply h
  · have hnone := find?_eq_none_iff.mpr (mt (mem_clusters_singleton h).mp hx)
    rw [if_neg hx, Growth.addLeaf, hnone]
    constructor
    · rw [← List.concat_eq_append]
      apply h.nodup.concat hx
    · rw [List.map_append, ← h.nodes]
      apply Array.toList_push
    · rw [List.map_append]
      apply List.Perm.trans _ List.perm_append_comm
      apply h.clusters.cons

/-- Every name of a list gets one leaf. -/
theorem Leaves.foldl_addLeaf {g : Growth S} {names : List String} (h : g.Leaves names)
    (xs : List String) :
  ∃ names', (xs.foldl Growth.addLeaf g).Leaves names' ∧ ∀ x, x ∈ names' ↔ x ∈ names ∨ x ∈ xs
  := by
  induction xs generalizing g names with
  | nil =>
    use names, h
    simp
  | cons y ys ih =>
    obtain ⟨names', h', hmem⟩ := ih (h.addLeaf y)
    use names', h'
    intro x
    rw [hmem, List.mem_cons]
    split
    · rename_i hy
      constructor
      · tauto
      · rintro (hx | rfl | hx)
        · left
          apply hx
        · left
          apply hy
        · right
          apply hx
    · rw [List.mem_append, List.mem_singleton, or_assoc]

end Growth

open Growth

variable [Score S]

/-- The leaves that grow for a merge sequence are the names that it mentions. -/
theorem exists_leaves (merges : List (Merge S)) :
  ∃ names, (ofNames (mentioned merges) : Growth S).Leaves names
    ∧ names.Perm (NameSet.ofList (mentioned merges)).names
  := by
  obtain ⟨names, hleaves, hmem⟩ := leaves_start.foldl_addLeaf (S := S) (mentioned merges)
  use names, hleaves
  apply NameSet.names_perm_of_mem_iff hleaves.nodup
  intro x
  rw [hmem, NameSet.mem_ofList]
  simp

/-- There are as many first nodes as there are different names in the sequence. -/
theorem size_nodes_ofNames (merges : List (Merge S)) :
  (ofNames (mentioned merges) : Growth S).nodes.size = (NameSet.ofList (mentioned merges)).size
  := by
  obtain ⟨names, hleaves, hperm⟩ := exists_leaves merges
  rw [← Array.length_toList, hleaves.nodes, List.length_map, hperm.length_eq, NameSet.size]

/-- The first clusters are the single names of the sequence, in some order. -/
theorem clusters_leaves (merges : List (Merge S)) :
  (ofNames (mentioned merges) : Growth S).clusters.Perm
    (singletons (NameSet.ofList (mentioned merges)))
  := by
  obtain ⟨names, hleaves, hperm⟩ := exists_leaves merges
  apply hleaves.clusters.trans (hperm.map _)

/-! ### Acceptance -/

/-- A sequence is accepted exactly when all its joins are, from the growth of single names. -/
theorem ofMerges_eq (merges : List (Merge S)) :
  ofMerges merges =
    match (ofNames (mentioned merges)).joinAll 0 merges with
    | .error e => .error e
    | .ok g => .ok ⟨g.nodes, g.childrenFirst⟩
  := rfl

/-- A sequence fails at the first step that does not fit. -/
theorem ofMerges_eq_error_iff {merges : List (Merge S)} {k : Nat} {fault : MergeFault} :
  ofMerges merges = .error (k, fault)
    ↔ (∃ m ∈ merges[k]?, m.fault? (replayed merges k) = some fault) ∧ ∀ j < k, FitsAt merges j
  := by
  have h := joinAll_eq_error_iff (clusters_leaves merges)
    (isOrderedPartition_singletons _).toIsPartition merges 0 k fault
  rw [Nat.zero_add] at h
  apply Iff.trans _ h
  rw [ofMerges_eq]
  split
  · rename_i e he
    rw [he, Except.error.injEq, Except.error.injEq]
  · rename_i g hg
    rw [hg]
    simp

/-- A sequence is refused at the first of its steps that does not fit. -/
theorem exists_ofMerges_eq_error_iff {merges : List (Merge S)} {k : Nat} :
  (∃ fault, ofMerges merges = .error (k, fault)) ↔ IsLeast {k | ¬ FitsAt merges k} k
  := by
  simp only [ofMerges_eq_error_iff]
  constructor
  · rintro ⟨fault, ⟨m, hm, hfault⟩, hbefore⟩
    constructor
    · intro hfits
      rw [Merge.fault?_eq_none_iff.mpr (hfits m hm)] at hfault
      cases hfault
    · intro j hj
      by_contra hlt
      apply hj (hbefore j (not_le.mp hlt))
  · rintro ⟨hk, hleast⟩
    have hbefore : ∀ j < k, FitsAt merges j := by
      intro j hj
      by_contra hfits
      apply absurd (hleast hfits) (not_le_of_gt hj)
    obtain ⟨m, hm⟩ := not_forall.mp hk
    obtain ⟨hm, hfits⟩ := Classical.not_imp.mp hm
    rw [← Merge.fault?_eq_none_iff, Option.eq_none_iff_forall_ne_some] at hfits
    obtain ⟨fault, hfault⟩ := not_forall_not.mp hfits
    use fault, ⟨m, hm, hfault⟩

/-- A sequence has a tree when each of its merges fits the blocks before it. -/
theorem exists_ofMerges_iff {merges : List (Merge S)} :
  (∃ t, ofMerges merges = .ok t) ↔ ∀ k, FitsAt merges k
  := by
  classical
  constructor
  · rintro ⟨t, ht⟩
    by_contra hfits
    have hk := not_forall.mp hfits
    obtain ⟨fault, hfault⟩ := exists_ofMerges_eq_error_iff.mpr (Nat.isLeast_find hk)
    rw [ht] at hfault
    cases hfault
  · intro hfits
    cases h : ofMerges merges with
    | error e =>
      have hk := exists_ofMerges_eq_error_iff.mp ⟨e.2, h⟩
      apply absurd (hfits e.1) hk.1
    | ok t => use t

/-- A merge sequence has a tree exactly if every merge joins two blocks without common members of
those that the merges before it leave.  Otherwise the failure tells the first step that does not. -/
theorem ofMerges_accepts_fitting (merges : List (Merge S)) :
  ((∃ t, ofMerges merges = .ok t) ↔ ∀ k, FitsAt merges k)
    ∧ ∀ k, IsLeast {k | ¬ FitsAt merges k} k
      ↔ ∃ fault, ofMerges merges = .error (k, fault)
        ∧ (Failure.ofMergeFault (k, fault)).code = .inconsistentDendrogram
        ∧ (Failure.ofMergeFault (k, fault)).message
          = "Invalid merge sequence at step " ++ toString k ++ ": " ++ fault.message
  := by
  use exists_ofMerges_iff
  intro k
  rw [← exists_ofMerges_eq_error_iff]
  constructor
  · rintro ⟨fault, hfault⟩
    use fault, hfault
    constructor
    · rfl
    · rfl
  · rintro ⟨fault, hfault, -⟩
    use fault

/-- A set that an earlier merge took away is no cluster any more. -/
example :
  ofMerges (S := Rat) [⟨.singleton "A", .singleton "B", 1⟩, ⟨.singleton "C", .singleton "A", 1⟩]
    = .error (1, .notACluster (.singleton "A"))
  := by rfl

end Dendrogram

end Cohesion
