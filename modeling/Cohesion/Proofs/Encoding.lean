import Cohesion.Proofs.Lineage

/-!
# The merges that a dendrogram encodes

`t.merge? id` reads a join of a tree as the merge of its two children, and `t.merges` reads all joins
in the order of their numbers.  Every merge of a sequence becomes one join, so reading the tree of a
sequence gives the sequence back: `Dendrogram.merges_ofMerges`.  While a tree grows, the nodes of the
current clusters have no parents, and only these get one: `Dendrogram.Growth.IsForest`.
-/

namespace Cohesion

namespace Dendrogram

variable {S : Type}

namespace Growth

/-! ### Growing trees -/

/-- The tree that has grown so far. -/
def tree (g : Growth S) : Dendrogram S :=
  ⟨g.nodes, g.childrenFirst⟩

theorem eq_tree {t : Dendrogram S} {g : Growth S} (h : t.nodes = g.nodes) :
  t = g.tree
  := by
  obtain ⟨nodes, childrenFirst⟩ := t
  obtain rfl : nodes = g.nodes := h
  rfl

theorem getElem?_tree (g : Growth S) (id : Nat) :
  g.tree.nodes[id]? = g.nodes[id]?
  := rfl

/-- A merge that is made leaves the nodes as they are. -/
theorem Joins.getElem? {g g' : Growth S} {m : Merge S} {l r : Nat} (h : g.Joins m g' l r)
    {id : Nat} {n : Node S} (hn : g.nodes[id]? = some n) :
  g'.nodes[id]? = some n
  := by
  rw [h.nodes]
  apply getElem?_push_of_eq_some hn

/-- A run keeps the nodes a growth has. -/
theorem Run.getElem? {g g' : Growth S} {ms : List (Merge S)} (h : g.Run ms g') {id : Nat}
    {n : Node S} (hn : g.nodes[id]? = some n) :
  g'.nodes[id]? = some n
  := by
  induction h with
  | nil => apply hn
  | cons hjoins hrun ih => apply ih (hjoins.getElem? hn)

/-! ### No node gets a second parent -/

/-- A node pushed onto a growth has its children, and the other nodes keep theirs. -/
theorem children_of_push {g g' : Growth S} {n : Node S} (hnodes : g'.nodes = g.nodes.push n)
    (id : Nat) :
  g'.tree.children id = if id = g.nodes.size then n.children else g.tree.children id
  := by
  rw [children, children, getElem?_tree, getElem?_tree, hnodes, Array.getElem?_push]
  split
  · apply Option.bind_some
  · rfl

/-- A new node brings its own children only. -/
theorem isChild_of_push {g g' : Growth S} {n : Node S} (hnodes : g'.nodes = g.nodes.push n)
    {id parent : Nat} :
  g'.tree.IsChild id parent
    ↔ g.tree.IsChild id parent
      ∨ parent = g.nodes.size ∧ ∃ l r, n.children = some (l, r) ∧ (id = l ∨ id = r)
  := by
  rw [IsChild, children_of_push hnodes]
  split
  · rename_i hparent
    subst hparent
    constructor
    · intro h
      right
      apply And.intro rfl h
    · rintro (h | ⟨-, h⟩)
      · apply absurd h.parent_lt_size (lt_irrefl _)
      · apply h
  · rename_i hparent
    symm
    apply or_iff_left
    rintro ⟨h, -⟩
    apply hparent h

/-- No node has two parents, and the nodes of the current clusters have none. -/
structure IsForest (g : Growth S) : Prop where
  parent_unique : Relator.RightUnique g.tree.IsChild
  not_isChild : ∀ e ∈ g.current, ∀ parent, ¬ g.tree.IsChild e.2 parent

theorem isForest_start :
  (start : Growth S).IsForest
  := by
  constructor
  · intro id p q hp
    apply absurd hp.parent_lt_size (Nat.not_lt_zero p)
  · intro e he
    apply absurd he List.not_mem_nil

/-- A new node may become the parent of nodes without parents that are no longer current. -/
theorem IsForest.of_push {g g' : Growth S} (h : g.IsForest) {n : Node S}
    {rest : List (NameSet × Nat)} (hrest : rest ⊆ g.current) (hnodes : g'.nodes = g.nodes.push n)
    (hcurrent : g'.current = (n.members, g.nodes.size) :: rest)
    (hchildren : ∀ l r, n.children = some (l, r) → ∀ id, id = l ∨ id = r →
      (∀ parent, ¬ g.tree.IsChild id parent) ∧ ∀ e ∈ rest, e.2 ≠ id) :
  g'.IsForest
  := by
  constructor
  · intro id p q hp hq
    rcases (isChild_of_push hnodes).mp hp with hp | ⟨hp, l, r, hn, hid⟩
    · rcases (isChild_of_push hnodes).mp hq with hq | ⟨-, l, r, hn, hid⟩
      · apply h.parent_unique hp hq
      · apply absurd hp ((hchildren l r hn id hid).1 p)
    · rcases (isChild_of_push hnodes).mp hq with hq | ⟨hq, -⟩
      · apply absurd hq ((hchildren l r hn id hid).1 q)
      · rw [hp, hq]
  · intro e he parent hparent
    rw [hcurrent] at he
    have hlt := hparent.lt
    rcases (isChild_of_push hnodes).mp hparent with hold | ⟨hnew, l, r, hn, hid⟩
    · rcases List.mem_cons.mp he with rfl | he
      · have hsize : parent < g.nodes.size := hold.parent_lt_size
        omega
      · apply h.not_isChild e (hrest he) parent hold
    · rcases List.mem_cons.mp he with rfl | he
      · omega
      · apply (hchildren l r hn e.2 hid).2 e he rfl

/-- Without a set, the entries of all the other sets remain. -/
theorem mem_without_iff {current : List (NameSet × Nat)} {set : NameSet} {e : NameSet × Nat} :
  e ∈ without current set ↔ e ∈ current ∧ e.1 ≠ set
  := by
  rw [without, List.mem_filter, decide_eq_true_iff]

variable [Score S]

/-- Adding a leaf keeps a growth a forest. -/
theorem IsForest.addLeaf {g : Growth S} (h : g.IsForest) (x : String) :
  (g.addLeaf x).IsForest
  := by
  rw [Growth.addLeaf]
  split
  · apply h
  · apply h.of_push (n := .leaf x) (List.Subset.refl g.current) rfl rfl
    rintro l r ⟨⟩

/-- The growth of single names is a forest. -/
theorem isForest_ofNames (xs : List String) :
  (ofNames xs : Growth S).IsForest
  := List.foldlRecOn xs addLeaf isForest_start fun _ h x _ => h.addLeaf x

/-- In a sound growth a node is current for one set only. -/
theorem IsSound.eq_of_mem_current {g : Growth S} (h : g.IsSound) {set set' : NameSet} {id : Nat}
    (hset : (set, id) ∈ g.current) (hset' : (set', id) ∈ g.current) :
  set = set'
  := by
  obtain ⟨n, hn, rfl⟩ := h.members set id hset
  obtain ⟨n', hn', rfl⟩ := h.members set' id hset'
  rw [hn] at hn'
  cases hn'
  rfl

/-- A join of a sound forest gives a forest. -/
theorem Joins.isForest {g g' : Growth S} {m : Merge S} {l r : Nat} (h : g.Joins m g' l r)
    (hsound : g.IsSound) (hg : g.IsForest) :
  g'.IsForest
  := by
  apply hg.of_push _ h.nodes h.current
  · rintro l' r' ⟨⟩ id hid
    constructor
    · rcases hid with rfl | rfl
      · apply hg.not_isChild _ h.left_mem
      · apply hg.not_isChild _ h.right_mem
    · rintro ⟨set, id'⟩ he rfl
      obtain ⟨he, hright⟩ := mem_without_iff.mp he
      obtain ⟨he, hleft⟩ := mem_without_iff.mp he
      rcases hid with rfl | rfl
      · apply hleft (hsound.eq_of_mem_current he h.left_mem)
      · apply hright (hsound.eq_of_mem_current he h.right_mem)
  · intro e he
    apply mem_of_mem_without (mem_of_mem_without he)

/-- A run from a sound forest ends in a forest. -/
theorem Run.isForest {g g' : Growth S} {ms : List (Merge S)} (h : g.Run ms g')
    (hsound : g.IsSound) (hg : g.IsForest) :
  g'.IsForest
  := by
  induction h with
  | nil => apply hg
  | cons hjoins hrun ih => apply ih (hjoins.isSound hsound) (hjoins.isForest hsound hg)

end Growth

/-! ### Reading merges off joins -/

variable [Score S]

/-- The merge of which a node is the join, none for a leaf. -/
def merge? (t : Dendrogram S) (id : Nat) : Option (Merge S) :=
  (t.children id).map fun (l, r) => ⟨t.members l, t.members r, t.height id⟩

/-- The merges of all joins of a tree, in the order of their numbers. -/
def merges (t : Dendrogram S) : List (Merge S) :=
  (List.range t.size).filterMap t.merge?

/-- A node stands for no merge exactly when it has no children. -/
theorem merge?_eq_none_iff {t : Dendrogram S} {id : Nat} :
  t.merge? id = none ↔ t.children id = none
  := Option.map_eq_none_iff

/-- An inner node stands for the merge of its children's members at its height. -/
theorem merge?_of_children {t : Dendrogram S} {id l r : Nat} (h : t.children id = some (l, r)) :
  t.merge? id = some ⟨t.members l, t.members r, t.height id⟩
  := by
  rw [merge?, h, Option.map_some]

namespace Growth

/-- A merge that is made can be read off the node that it adds. -/
theorem Joins.merge? {g g' : Growth S} {m : Merge S} {l r : Nat} (h : g.Joins m g' l r)
    (hg : g.IsSound) {t : Dendrogram S}
    (ht : ∀ (id : Nat) (n : Node S), g'.nodes[id]? = some n → t.nodes[id]? = some n) :
  t.merge? g.nodes.size = some m
  := by
  obtain ⟨left, hleft, hleft'⟩ := hg.members m.left l h.left_mem
  obtain ⟨right, hright, hright'⟩ := hg.members m.right r h.right_mem
  obtain ⟨n, hn, hchildren, hheight⟩ : ∃ n, t.nodes[g.nodes.size]? = some n
      ∧ n.children = some (l, r) ∧ n.height = m.score := by
    have hnew := congrArg (fun nodes : Array (Node S) => nodes[g.nodes.size]?) h.nodes
    rw [Array.getElem?_push_size] at hnew
    refine ⟨_, ht _ _ hnew, rfl, rfl⟩
  rw [merge?_of_children ((children_of_eq_some hn).trans hchildren), height_of_eq_some hn, hheight,
    members_of_eq_some (ht l left (h.getElem? hleft)), hleft',
    members_of_eq_some (ht r right (h.getElem? hright)), hright']

/-- The nodes that a run adds are the joins of its merges, in their order. -/
theorem Run.merge? {g g' : Growth S} {ms : List (Merge S)} (h : g.Run ms g') (hg : g.IsSound)
    {step : Nat} (hstep : step < ms.length) :
  g'.tree.merge? (g.nodes.size + step) = some ms[step]
  := by
  induction h generalizing step with
  | nil => apply absurd hstep (Nat.not_lt_zero step)
  | cons hjoins hrun ih =>
    cases step with
    | zero => apply hjoins.merge? hg fun id n => hrun.getElem?
    | succ step =>
      have hsize := congrArg Array.size hjoins.nodes
      rw [Array.size_push] at hsize
      have hjoin := ih (hjoins.isSound hg) (Nat.lt_of_succ_lt_succ hstep)
      rw [hsize, Nat.add_right_comm] at hjoin
      apply hjoin

end Growth

/-! ### The tree of a merge sequence -/

open Growth

variable {merges : List (Merge S)} {t : Dendrogram S}

/-- In the dendrogram of an accepted sequence every node has at most one parent. -/
theorem parent_unique_ofMerges (h : ofMerges merges = .ok t) :
  Relator.RightUnique t.IsChild
  := by
  obtain ⟨g, hrun, hnodes⟩ := exists_run h
  rw [eq_tree hnodes]
  apply (hrun.isForest (isSound_ofNames _) (isForest_ofNames _)).parent_unique

/-- The number of names that a merge sequence mentions. -/
def nameCount (merges : List (Merge S)) : Nat :=
  (NameSet.ofList (mentioned merges)).size

/-- The first nodes are the leaves of the names that the sequence mentions. -/
theorem exists_leaves_ofMerges (h : ofMerges merges = .ok t) :
  ∃ names : List String, names.Perm (NameSet.ofList (mentioned merges)).names
    ∧ ∀ (id : Nat) (hid : id < names.length), t.nodes[id]? = some (.leaf names[id])
  := by
  obtain ⟨g, hrun, hnodes⟩ := exists_run h
  obtain ⟨names, hleaves, hperm⟩ := exists_leaves merges
  use names, hperm
  intro id hid
  rw [hnodes]
  apply hrun.getElem?
  rw [← Array.getElem?_toList, hleaves.nodes, List.getElem?_map, List.getElem?_eq_getElem hid,
    Option.map_some]

/-- The nodes after the leaves are the joins of the merges, in their order. -/
theorem merge?_ofMerges (h : ofMerges merges = .ok t) {step : Nat} (hstep : step < merges.length) :
  t.merge? (nameCount merges + step) = some merges[step]
  := by
  obtain ⟨g, hrun, hnodes⟩ := exists_run h
  rw [eq_tree hnodes, nameCount, ← size_nodes_ofNames]
  apply hrun.merge? (isSound_ofNames _) hstep

/-- The first nodes, one for each name, stand for no merge. -/
theorem merge?_ofMerges_of_lt (h : ofMerges merges = .ok t) {id : Nat} (hid : id < nameCount merges) :
  t.merge? id = none
  := by
  obtain ⟨names, hperm, hleaves⟩ := exists_leaves_ofMerges h
  have hid' : id < names.length := by
    rw [hperm.length_eq]
    apply hid
  rw [merge?_eq_none_iff, children_of_eq_some (hleaves id hid')]
  rfl

/-- Every join is that of a merge of the sequence. -/
theorem exists_getElem_of_children (h : ofMerges merges = .ok t) {id l r : Nat}
    (hchildren : t.children id = some (l, r)) :
  ∃ (step : Nat) (hstep : step < merges.length), id = nameCount merges + step
    ∧ merges[step] = ⟨t.members l, t.members r, t.height id⟩
  := by
  have hsize := lt_size_of_children hchildren
  have hmerge := merge?_of_children hchildren
  rw [size_ofMerges h, ← nameCount] at hsize
  have hle : nameCount merges ≤ id := by
    by_contra hlt
    rw [merge?_ofMerges_of_lt h (not_le.mp hlt)] at hmerge
    cases hmerge
  obtain ⟨step, rfl⟩ := Nat.exists_eq_add_of_le hle
  have hstep : step < merges.length := by omega
  rw [merge?_ofMerges h hstep] at hmerge
  use step, hstep, rfl, Option.some.inj hmerge

/-- Reading the tree of a merge sequence gives the sequence back. -/
theorem merges_ofMerges (h : ofMerges merges = .ok t) :
  t.merges = merges
  := by
  have hleaves : (List.range (nameCount merges)).filterMap t.merge? = [] := by
    rw [List.filterMap_eq_nil_iff]
    intro id hid
    apply merge?_ofMerges_of_lt h (List.mem_range.mp hid)
  have hjoins : (List.range merges.length).map (fun step => t.merge? (nameCount merges + step))
      = merges.map some := by
    apply List.ext_getElem
    · rw [List.length_map, List.length_map, List.length_range]
    · intro step hstep hstep'
      rw [List.getElem_map, List.getElem_map, List.getElem_range]
      apply merge?_ofMerges h
  rw [Dendrogram.merges, size_ofMerges h, ← nameCount, List.range_add, List.filterMap_append,
    hleaves, List.nil_append, List.filterMap_map]
  have hid : t.merge? ∘ (nameCount merges + ·)
      = id ∘ fun step => t.merge? (nameCount merges + step) := rfl
  rw [hid, ← List.filterMap_map, hjoins, List.filterMap_map]
  apply List.filterMap_some

/-! ### The root -/

/-- The dendrogram of an accepted sequence has no root exactly when the sequence is empty. -/
theorem root?_ofMerges_eq_none_iff (h : ofMerges merges = .ok t) :
  t.root? = none ↔ merges = []
  := by
  rw [root?_eq_none_iff, size_ofMerges h]
  constructor
  · intro hzero
    apply List.eq_nil_of_length_eq_zero
    omega
  · rintro rfl
    rfl

/-- No node is the parent of the root, because it would have more members. -/
theorem IsSound.not_isChild_root (ht : t.IsSound) {root : Nat} (hroot : t.root? = some root)
    (parent : Nat) :
  ¬ t.IsChild root parent
  := by
  intro h
  apply absurd (ht.size_lt_of_isChild h)
  apply not_lt_of_ge
  apply (root?_eq_some_iff.mp hroot).le parent h.parent_lt_size

/-- A tree has a leaf for every name of a merge sequence and then a join for every merge, from which
the merge can be read, and the tree is the one that the joins say: children come before parents, no
node has two parents, a join has the members of its children, which have none in common, and is one
deeper than the deeper of them, and the root is the last of the largest nodes and has no parent. -/
structure Encodes (t : Dendrogram S) (merges : List (Merge S)) : Prop where
  size : t.size = nameCount merges + merges.length
  leaves : ∃ names : List String, names.Nodup ∧ (∀ x, x ∈ names ↔ x ∈ mentioned merges)
    ∧ names.length = nameCount merges
    ∧ ∀ (id : Nat) (hid : id < names.length), t.nodes[id]? = some (.leaf names[id])
  joins : ∀ (step : Nat) (hstep : step < merges.length),
    t.merge? (nameCount merges + step) = some merges[step]
  merges_eq : t.merges = merges
  child_lt : ∀ id parent, t.IsChild id parent → id < parent
  parent_unique : ∀ id p q, t.IsChild id p → t.IsChild id q → p = q
  join : ∀ id l r, t.children id = some (l, r) → l ≠ r
    ∧ (t.members l).Disjoint (t.members r) ∧ t.members id = t.members l ∪ t.members r
    ∧ t.depth id = 1 + max (t.depth l) (t.depth r)
  root_eq_none : t.root? = none ↔ merges = []
  root : ∀ root ∈ t.root?, t.IsLargest t.size root ∧ ∀ parent, ¬ t.IsChild root parent

/-- The tree of a merge sequence encodes it. -/
theorem encodes_ofMerges (h : ofMerges merges = .ok t) :
  t.Encodes merges
  := by
  have ht := isSound_ofMerges h
  constructor
  · apply size_ofMerges h
  · obtain ⟨names, hperm, hleaves⟩ := exists_leaves_ofMerges h
    use names, hperm.nodup_iff.mpr (NameSet.nodup _)
    constructor
    · intro x
      rw [hperm.mem_iff, NameSet.mem_names, NameSet.mem_ofList]
    · use hperm.length_eq
  · intro step hstep
    apply merge?_ofMerges h
  · apply merges_ofMerges h
  · intro id parent hchild
    apply hchild.lt
  · intro id p q hp hq
    apply parent_unique_ofMerges h hp hq
  · intro id l r hchildren
    obtain ⟨hl, -, hdisjoint, hmembers, hdepth⟩ := ht.of_children hchildren
    refine ⟨?_, hdisjoint, hmembers, hdepth⟩
    rintro rfl
    apply ht.members_ne_empty hl hdisjoint.eq_empty
  · apply root?_ofMerges_eq_none_iff h
  · intro root hroot
    use root?_eq_some_iff.mp hroot
    apply ht.not_isChild_root hroot

/-- Two merges may leave two trees, of which the later one has the root if they are as large. -/
theorem encodes_ofMerges_forest :
  let merges : List (Merge Float) :=
    [⟨.singleton "C", .singleton "A", 0.5⟩, ⟨.singleton "B", .singleton "D", 0.5⟩]
  ∃ t, ofMerges merges = .ok t ∧ t.Encodes merges ∧ t.root? = some 5
  := by
  intro merges
  obtain ⟨t, ht, hroot⟩ : ∃ t, ofMerges merges = .ok t ∧ t.root? = some 5 := ⟨_, rfl, rfl⟩
  use t, ht, encodes_ofMerges ht

end Dendrogram

end Cohesion
