import Cohesion.Proofs.Growth

/-!
# The nodes of a dendrogram

Every node of a tree that a merge sequence encodes is a leaf or joins two nodes without common
members: `Dendrogram.IsSound`.  This alone tells what the walks over a tree find: the leaves below a
node are its members, each of them once.  `Dendrogram.Growth.Run` is a sequence of merges that are
made one after the other; the nodes of a tree are the leaves and the unions of the merges.  The root
is the last of the largest nodes.
-/

namespace Cohesion

namespace Dendrogram

variable {S : Type}

theorem getElem?_push_of_eq_some {nodes : Array (Node S)} {id : Nat} {n : Node S}
    (h : nodes[id]? = some n) (new : Node S) :
  (nodes.push new)[id]? = some n
  := by
  obtain ⟨hid, hn⟩ := Array.getElem?_eq_some_iff.mp h
  rw [Array.getElem?_push_lt hid, hn]

theorem members_of_eq_some {t : Dendrogram S} {id : Nat} {n : Node S}
    (h : t.nodes[id]? = some n) :
  t.members id = n.members
  := by
  rw [members, h]

theorem members_of_eq_none {t : Dendrogram S} {id : Nat} (h : t.nodes[id]? = none) :
  t.members id = ∅
  := by
  rw [members, h]

/-! ### The leaves below a node -/

theorem leaves_of_eq_none {t : Dendrogram S} {id : Nat} (h : t.nodes[id]? = none) :
  t.leaves id = []
  := by
  rw [leaves, dif_neg (not_lt_of_ge (Array.getElem?_eq_none_iff.mp h))]

/-- The leaves of a node without children are its own names. -/
theorem leaves_of_children_eq_none {t : Dendrogram S} {id : Nat} {n : Node S}
    (h : t.nodes[id]? = some n) (hchildren : n.children = none) :
  t.leaves id = n.members.names
  := by
  obtain ⟨hid, rfl⟩ := Array.getElem?_eq_some_iff.mp h
  rw [leaves, dif_pos hid]
  split
  · rfl
  · rename_i l r hc
    rw [hchildren] at hc
    cases hc

/-- The leaves of an inner node are those of its left child, then those of its right. -/
theorem leaves_of_children_eq_some {t : Dendrogram S} {id l r : Nat} {n : Node S}
    (h : t.nodes[id]? = some n) (hchildren : n.children = some (l, r)) :
  t.leaves id = t.leaves l ++ t.leaves r
  := by
  obtain ⟨hid, rfl⟩ := Array.getElem?_eq_some_iff.mp h
  rw [leaves, dif_pos hid]
  split
  · rename_i hc
    rw [hchildren] at hc
    cases hc
  · rename_i l' r' hc
    rw [hchildren] at hc
    cases hc
    rfl

section

variable [Score S]

/-- A node is the leaf of a class, or it has the members of its children, which have none in
common, and is one deeper than the deeper one. -/
inductive Node.IsSound (nodes : Array (Node S)) : Node S → Prop
  | leaf (name : String) : IsSound nodes (.leaf name)
  | join {l r : Nat} {left right : Node S} (height : S) (hleft : nodes[l]? = some left)
      (hright : nodes[r]? = some right) (hdisjoint : left.members.Disjoint right.members) :
      IsSound nodes
        ⟨left.members ∪ right.members, height, 1 + max left.depth right.depth, some (l, r)⟩

/-- A further node does not matter to those that are there. -/
theorem Node.IsSound.push {nodes : Array (Node S)} {n : Node S} (h : n.IsSound nodes)
    (new : Node S) :
  n.IsSound (nodes.push new)
  := by
  cases h with
  | leaf name => apply leaf
  | join height hleft hright hdisjoint =>
    apply join height (getElem?_push_of_eq_some hleft new) (getElem?_push_of_eq_some hright new)
      hdisjoint

/-- All nodes of a tree are sound. -/
def IsSound (t : Dendrogram S) : Prop :=
  ∀ n ∈ t.nodes, n.IsSound t.nodes

/-- The leaves below a node are the members of the node, each of them once. -/
theorem IsSound.leaves_perm {t : Dendrogram S} (ht : t.IsSound) (id : Nat) :
  (t.leaves id).Perm (t.members id).names
  := by
  induction id using Nat.strong_induction_on with
  | h id ih =>
    cases hn : t.nodes[id]? with
    | none =>
      rw [leaves_of_eq_none hn, members_of_eq_none hn]
      apply List.Perm.nil
    | some n =>
      rw [members_of_eq_some hn]
      cases ht n (Array.mem_of_getElem? hn) with
      | leaf name => rw [leaves_of_children_eq_none hn rfl]
      | @join l r left right height hleft hright hdisjoint =>
        obtain ⟨hid, hn'⟩ := Array.getElem?_eq_some_iff.mp hn
        obtain ⟨hl, hr⟩ := t.childrenFirst id hid l r (by rw [hn'])
        rw [leaves_of_children_eq_some hn rfl]
        apply List.Perm.trans _ (NameSet.names_union_perm hdisjoint)
        rw [← members_of_eq_some hleft, ← members_of_eq_some hright]
        apply (ih l hl).append (ih r hr)

end

/-! ### The root -/

/-- `r` is the last of the largest of the first `n` nodes. -/
structure IsLargest (t : Dendrogram S) (n r : Nat) : Prop where
  lt : r < n
  le : ∀ id < n, (t.members id).size ≤ (t.members r).size
  last : ∀ id < n, (t.members id).size = (t.members r).size → id ≤ r

/-- The larger of two nodes, and the second one on a tie. -/
def larger (t : Dendrogram S) (best : Option Nat) (id : Nat) : Option Nat :=
  match best with
  | none => some id
  | some b => if (t.members b).size ≤ (t.members id).size then some id else some b

/-- The root is found by comparing the nodes in order of their numbers. -/
theorem root?_eq (t : Dendrogram S) :
  t.root? = (List.range t.size).foldl t.larger none
  := rfl

/-- The comparison of the first nodes ends in the largest of them. -/
theorem isLargest_foldl (t : Dendrogram S) (n : Nat) :
  ∃ r, (List.range (n + 1)).foldl t.larger none = some r ∧ t.IsLargest (n + 1) r
  := by
  induction n with
  | zero =>
    use 0, rfl
    constructor
    · apply Nat.zero_lt_one
    · intro id hid
      rw [Nat.lt_one_iff.mp hid]
    · intro id hid
      rw [Nat.lt_one_iff.mp hid]
      simp
  | succ n ih =>
    obtain ⟨r, hr, hlargest⟩ := ih
    rw [List.range_succ, List.foldl_append, hr, List.foldl_cons, List.foldl_nil, larger]
    -- A later node of the same size wins, so the last of the largest nodes is kept.
    by_cases hle : (t.members r).size ≤ (t.members (n + 1)).size
    · rw [if_pos hle]
      use n + 1, rfl
      constructor
      · apply Nat.lt_succ_self
      · intro id hid
        rcases Nat.lt_succ_iff_lt_or_eq.mp hid with hid | rfl
        · apply (hlargest.le id hid).trans hle
        · apply le_refl
      · intro id hid _
        apply Nat.le_of_lt_succ hid
    · rw [if_neg hle]
      use r, rfl
      constructor
      · apply Nat.lt_succ_of_lt hlargest.lt
      · intro id hid
        rcases Nat.lt_succ_iff_lt_or_eq.mp hid with hid | rfl
        · apply hlargest.le id hid
        · apply le_of_not_ge hle
      · intro id hid heq
        rcases Nat.lt_succ_iff_lt_or_eq.mp hid with hid | rfl
        · apply hlargest.last id hid heq
        · apply absurd (le_of_eq heq.symm) hle

/-- A dendrogram has no root exactly when it has no nodes. -/
theorem root?_eq_none_iff {t : Dendrogram S} :
  t.root? = none ↔ t.size = 0
  := by
  rw [root?_eq]
  cases t.size with
  | zero => simp
  | succ n =>
    obtain ⟨r, hr, -⟩ := isLargest_foldl t n
    rw [hr]
    simp

/-- The root is the last of the largest nodes. -/
theorem root?_eq_some_iff {t : Dendrogram S} {r : Nat} :
  t.root? = some r ↔ t.IsLargest t.size r
  := by
  rw [root?_eq]
  cases t.size with
  | zero =>
    constructor
    · rintro ⟨⟩
    · intro h
      apply absurd h.lt (Nat.not_lt_zero r)
  | succ n =>
    obtain ⟨r', hr', hlargest⟩ := isLargest_foldl t n
    rw [hr', Option.some.injEq]
    constructor
    · rintro rfl
      apply hlargest
    · intro h
      have hsize : (t.members r').size = (t.members r).size :=
        Nat.le_antisymm (h.le r' hlargest.lt) (hlargest.le r h.lt)
      apply Nat.le_antisymm (h.last r' hlargest.lt hsize) (hlargest.last r h.lt hsize.symm)

/-- The root of a tree in which one node has the members of all nodes has these as well. -/
theorem members_root {t : Dendrogram S} {classes : NameSet} {id : Nat} (hid : id < t.size)
    (hmembers : t.members id = classes) (hsubset : ∀ id x, x ∈ t.members id → x ∈ classes) :
  ∃ r, t.root? = some r ∧ t.members r = classes
  := by
  obtain ⟨r, hr⟩ : ∃ r, t.root? = some r := by
    rw [← Option.ne_none_iff_exists', ne_eq, root?_eq_none_iff]
    apply Nat.ne_zero_of_lt hid
  use r, hr
  apply NameSet.eq_of_subset_of_size_le (hsubset r)
  rw [← hmembers]
  apply (root?_eq_some_iff.mp hr).le id hid

/-! ### Runs -/

namespace Growth

/-- The merges of a list are made one after the other. -/
inductive Run : Growth S → List (Merge S) → Growth S → Prop
  | nil (g : Growth S) : Run g [] g
  | cons {g g' g'' : Growth S} {m : Merge S} {ms : List (Merge S)} {l r : Nat}
      (hjoins : g.Joins m g' l r) (hrun : Run g' ms g'') : Run g (m :: ms) g''

/-- The joins of an accepted sequence make a run from the first growth to the last. -/
theorem run_of_joinAll {g g' : Growth S} {ms : List (Merge S)} {step : Nat}
    (h : g.joinAll step ms = .ok g') :
  g.Run ms g'
  := by
  induction ms generalizing g step with
  | nil =>
    cases h
    apply Run.nil
  | cons m ms ih =>
    cases hjoin : g.join m with
    | error fault =>
      rw [joinAll_cons_of_eq_error hjoin] at h
      cases h
    | ok g'' =>
      rw [joinAll_cons_of_eq_ok hjoin] at h
      obtain ⟨l, r, hjoins⟩ := exists_joins hjoin
      apply Run.cons hjoins (ih h)

/-- Every merge adds one node. -/
theorem Run.size {g g' : Growth S} {ms : List (Merge S)} (h : g.Run ms g') :
  g'.nodes.size = g.nodes.size + ms.length
  := by
  induction h with
  | nil => rfl
  | cons hjoins hrun ih =>
    rw [ih, hjoins.nodes, Array.size_push, List.length_cons]
    omega

/-- The nodes have the members of those before and the unions of the merges. -/
theorem Run.exists_members_iff {g g' : Growth S} {ms : List (Merge S)} (h : g.Run ms g')
    {set : NameSet} :
  (∃ n ∈ g'.nodes, n.members = set)
    ↔ (∃ n ∈ g.nodes, n.members = set) ∨ ∃ m ∈ ms, m.merged = set
  := by
  induction h with
  | nil => simp
  | @cons g g' g'' m ms l r hjoins hrun ih =>
    rw [ih, hjoins.nodes]
    simp only [Array.mem_push, List.mem_cons, or_and_right, exists_or, exists_eq_left, or_assoc]

section

variable [Score S]

/-- The nodes are sound, and every current cluster is the members of its node. -/
structure IsSound (g : Growth S) : Prop where
  node : ∀ n ∈ g.nodes, n.IsSound g.nodes
  members : ∀ set id, (set, id) ∈ g.current → ∃ n, g.nodes[id]? = some n ∧ n.members = set

theorem isSound_start :
  (start : Growth S).IsSound
  := by
  constructor
  · intro n hn
    apply absurd hn (Array.not_mem_empty n)
  · intro set id hid
    apply absurd hid List.not_mem_nil

/-- A sound node that becomes the node of its members leaves all nodes sound. -/
theorem IsSound.of_push {g g' : Growth S} (h : g.IsSound) {n : Node S} (hn : n.IsSound g.nodes)
    {rest : List (NameSet × Nat)} (hrest : rest ⊆ g.current) (hnodes : g'.nodes = g.nodes.push n)
    (hcurrent : g'.current = (n.members, g.nodes.size) :: rest) :
  g'.IsSound
  := by
  constructor
  · rw [hnodes]
    intro k hk
    rcases Array.mem_push.mp hk with hk | rfl
    · apply (h.node k hk).push
    · apply hn.push
  · rw [hnodes, hcurrent]
    intro set id hid
    rcases List.mem_cons.mp hid with heq | hid
    · cases heq
      use n, Array.getElem?_push_size
    · obtain ⟨k, hk, hmembers⟩ := h.members set id (hrest hid)
      use k, getElem?_push_of_eq_some hk n

/-- Adding a leaf keeps a growth sound. -/
theorem IsSound.addLeaf {g : Growth S} (h : g.IsSound) (x : String) :
  (g.addLeaf x).IsSound
  := by
  rw [Growth.addLeaf]
  split
  · apply h
  · apply h.of_push (.leaf x) (List.Subset.refl g.current)
    · rfl
    · rfl

/-- The growth of single names is sound. -/
theorem isSound_ofNames (xs : List String) :
  (ofNames xs : Growth S).IsSound
  := List.foldlRecOn xs addLeaf isSound_start fun _ h x _ => h.addLeaf x

/-- A join keeps a growth sound. -/
theorem Joins.isSound {g g' : Growth S} {m : Merge S} {l r : Nat} (h : g.Joins m g' l r)
    (hg : g.IsSound) :
  g'.IsSound
  := by
  obtain ⟨left, hleft, hleft'⟩ := hg.members m.left l h.left_mem
  obtain ⟨right, hright, hright'⟩ := hg.members m.right r h.right_mem
  apply hg.of_push _ _ h.nodes h.current
  · obtain ⟨hl, rfl⟩ := Array.getElem?_eq_some_iff.mp hleft
    obtain ⟨hr, rfl⟩ := Array.getElem?_eq_some_iff.mp hright
    rw [Merge.merged, ← hleft', ← hright']
    apply Node.IsSound.join m.score hleft hright
    rw [hleft', hright']
    apply h.disjoint
  · intro e he
    apply mem_of_mem_without (mem_of_mem_without he)

/-- A run of joins keeps a growth sound. -/
theorem Run.isSound {g g' : Growth S} {ms : List (Merge S)} (h : g.Run ms g') (hg : g.IsSound) :
  g'.IsSound
  := by
  induction h with
  | nil => apply hg
  | cons hjoins hrun ih => apply ih (hjoins.isSound hg)

end

end Growth

/-! ### The tree of a merge sequence -/

open Growth

variable [Score S]

/-- An accepted sequence is a run from the names it mentions, and the tree holds the nodes of its
end. -/
theorem exists_run {merges : List (Merge S)} {t : Dendrogram S} (h : ofMerges merges = .ok t) :
  ∃ g, (ofNames (mentioned merges)).Run merges g ∧ t.nodes = g.nodes
  := by
  rw [ofMerges_eq] at h
  split at h
  · cases h
  · rename_i g hg
    cases h
    use g, run_of_joinAll hg

/-- The dendrogram of every accepted sequence is sound. -/
theorem isSound_ofMerges {merges : List (Merge S)} {t : Dendrogram S}
    (h : ofMerges merges = .ok t) :
  t.IsSound
  := by
  obtain ⟨g, hrun, hnodes⟩ := exists_run h
  rw [IsSound, hnodes]
  apply (hrun.isSound (isSound_ofNames _)).node

/-- There is a node for every name and for every merge. -/
theorem size_ofMerges {merges : List (Merge S)} {t : Dendrogram S} (h : ofMerges merges = .ok t) :
  t.size = (NameSet.ofList (mentioned merges)).size + merges.length
  := by
  obtain ⟨g, hrun, hnodes⟩ := exists_run h
  rw [size, hnodes, hrun.size, size_nodes_ofNames]

/-- The nodes have the single names and the unions of the merges for members. -/
theorem exists_members_ofMerges_iff {merges : List (Merge S)} {t : Dendrogram S}
    (h : ofMerges merges = .ok t) {set : NameSet} :
  (∃ n ∈ t.nodes, n.members = set)
    ↔ (∃ x ∈ mentioned merges, .singleton x = set) ∨ ∃ m ∈ merges, m.merged = set
  := by
  obtain ⟨g, hrun, hnodes⟩ := exists_run h
  obtain ⟨names, hleaves, hperm⟩ := exists_leaves merges
  rw [hnodes, hrun.exists_members_iff]
  apply or_congr_left
  simp only [← Array.mem_toList_iff, hleaves.nodes, List.mem_map, exists_exists_and_eq_and,
    hperm.mem_iff, NameSet.mem_names, NameSet.mem_ofList]
  rfl

end Dendrogram

end Cohesion
