import Cohesion.Proofs.Encoding
import Cohesion.Proofs.Replay

/-!
# The nodes on top

After some merges of a sequence its tree has a node for every leaf and every merge made so far.  The
nodes without a parent among these are those of the current clusters,
`Dendrogram.Growth.TopsAreCurrent`, and so their members are the blocks of the replay:
`Dendrogram.replay_reads_tops`.
-/

namespace Cohesion

namespace Dendrogram

variable {S : Type}

namespace Growth

/-! ### Parts of a run -/

/-- A run over two sequences passes through the end of the first. -/
theorem Run.exists_of_append {g g'' : Growth S} {ms ms' : List (Merge S)}
    (h : g.Run (ms ++ ms') g'') :
  ∃ g', g.Run ms g' ∧ g'.Run ms' g''
  := by
  induction ms generalizing g with
  | nil =>
    use g, .nil g
    apply h
  | cons m ms ih =>
    cases h with
    | cons hjoins hrun =>
      obtain ⟨g', hfirst, hrest⟩ := ih hrun
      use g', .cons hjoins hfirst

/-- The current clusters of a run are the blocks of a replay. -/
theorem Run.clusters_perm {g g' : Growth S} {ms : List (Merge S)} (h : g.Run ms g')
    {blocks : List NameSet} (hg : g.clusters.Perm blocks) :
  g'.clusters.Perm (ms.foldl replayStep blocks)
  := by
  induction h generalizing blocks with
  | nil => apply hg
  | cons hjoins hrun ih => apply ih (hjoins.clusters_perm hg)

/-! ### Nodes without parents -/

/-- Every node without a parent is the node of a current cluster. -/
def TopsAreCurrent (g : Growth S) : Prop :=
  ∀ id < g.nodes.size, (∀ parent, ¬ g.tree.IsChild id parent) → ∃ e ∈ g.current, e.2 = id

theorem topsAreCurrent_start :
  (start : Growth S).TopsAreCurrent
  := by
  intro id hid
  apply absurd hid (Nat.not_lt_zero id)

/-- A new node may take the nodes that it joins away from the current ones. -/
theorem TopsAreCurrent.of_push {g g' : Growth S} (h : g.TopsAreCurrent) {n : Node S}
    {rest : List (NameSet × Nat)} (hnodes : g'.nodes = g.nodes.push n)
    (hcurrent : g'.current = (n.members, g.nodes.size) :: rest)
    (hrest : ∀ e ∈ g.current,
      e ∈ rest ∨ ∃ l r, n.children = some (l, r) ∧ (e.2 = l ∨ e.2 = r)) :
  g'.TopsAreCurrent
  := by
  intro id hid htop
  rw [hcurrent]
  rw [hnodes, Array.size_push] at hid
  rcases Nat.lt_succ_iff_lt_or_eq.mp hid with hid | rfl
  · obtain ⟨e, he, rfl⟩ := h id hid fun parent hparent =>
      htop parent ((isChild_of_push hnodes).mpr (Or.inl hparent))
    rcases hrest e he with he | hchild
    · use e, List.mem_cons_of_mem _ he
    · apply absurd ((isChild_of_push hnodes).mpr (Or.inr ⟨rfl, hchild⟩)) (htop g.nodes.size)
  · use (n.members, g.nodes.size), List.mem_cons_self

/-- Adding a leaf keeps the nodes without a parent the current ones. -/
theorem TopsAreCurrent.addLeaf [Score S] {g : Growth S} (h : g.TopsAreCurrent) (x : String) :
  (g.addLeaf x).TopsAreCurrent
  := by
  rw [Growth.addLeaf]
  split
  · apply h
  · apply h.of_push (n := .leaf x) rfl rfl
    intro e he
    apply Or.inl he

/-- Among leaves alone every node is a current one without a parent. -/
theorem topsAreCurrent_ofNames [Score S] (xs : List String) :
  (ofNames xs : Growth S).TopsAreCurrent
  := List.foldlRecOn xs addLeaf topsAreCurrent_start fun _ h x _ => h.addLeaf x

/-- A join keeps the nodes without a parent the current ones. -/
theorem Joins.topsAreCurrent {g g' : Growth S} {m : Merge S} {l r : Nat} (h : g.Joins m g' l r)
    (hnodup : g.clusters.Nodup) (hg : g.TopsAreCurrent) :
  g'.TopsAreCurrent
  := by
  apply hg.of_push h.nodes h.current
  intro e he
  -- No set is current twice, so only the two joined nodes are taken away.
  by_cases hleft : e.1 = m.left
  · right
    use l, r, rfl
    left
    rw [List.inj_on_of_nodup_map hnodup he h.left_mem hleft]
  · by_cases hright : e.1 = m.right
    · right
      use l, r, rfl
      right
      rw [List.inj_on_of_nodup_map hnodup he h.right_mem hright]
    · left
      apply mem_without_iff.mpr ⟨mem_without_iff.mpr ⟨he, hleft⟩, hright⟩

/-- A join keeps the clusters a partition of the classes. -/
theorem Joins.isPartition {g g' : Growth S} {m : Merge S} {l r : Nat} (h : g.Joins m g' l r)
    {classes : NameSet} (hg : IsPartition classes g.clusters) :
  IsPartition classes g'.clusters
  := by
  apply IsPartition.perm _ (h.clusters_perm (List.Perm.refl _)).symm
  apply hg.replayStep
  · apply List.mem_map_of_mem h.left_mem
  · apply List.mem_map_of_mem h.right_mem

/-- A run keeps the nodes without a parent the current ones. -/
theorem Run.topsAreCurrent {g g' : Growth S} {ms : List (Merge S)} (h : g.Run ms g')
    {classes : NameSet} (hpartition : IsPartition classes g.clusters) (hg : g.TopsAreCurrent) :
  g'.TopsAreCurrent
  := by
  induction h with
  | nil => apply hg
  | cons hjoins hrun ih =>
    apply ih (hjoins.isPartition hpartition) (hjoins.topsAreCurrent hpartition.nodup hg)

end Growth

/-! ### The tree of a merge sequence -/

open Growth

/-- A node is one of the first `n` and has no parent among them. -/
def IsTopOf (t : Dendrogram S) (n id : Nat) : Prop :=
  id < n ∧ ∀ parent < n, ¬ t.IsChild id parent

/-- The first nodes of a tree that has grown further have the parents they had. -/
theorem isTopOf_iff {t : Dendrogram S} {g : Growth S}
    (h : ∀ (id : Nat) (n : Node S), g.nodes[id]? = some n → t.nodes[id]? = some n) {id : Nat} :
  t.IsTopOf g.nodes.size id ↔ id < g.nodes.size ∧ ∀ parent, ¬ g.tree.IsChild id parent
  := by
  apply and_congr_right
  rintro -
  have hchild {parent : Nat} (hparent : parent < g.nodes.size) :
      t.IsChild id parent ↔ g.tree.IsChild id parent := by
    have hn : g.nodes[parent]? = some g.nodes[parent] := Array.getElem?_eq_getElem hparent
    rw [IsChild, IsChild, children_of_eq_some (h parent _ hn),
      children_of_eq_some (t := g.tree) hn]
  constructor
  · intro htop parent hparent
    apply htop parent hparent.parent_lt_size ((hchild hparent.parent_lt_size).mpr hparent)
  · intro htop parent hlt hparent
    apply htop parent ((hchild hlt).mp hparent)

variable [Score S] {merges : List (Merge S)} {t : Dendrogram S}

/-- The members of the nodes on top after some merges are the blocks of the names mentioned. -/
theorem exists_tops (ht : ofMerges merges = .ok t) (steps : Nat) :
  ∃ ids : List Nat, ids.Nodup
    ∧ (∀ id, id ∈ ids ↔ t.IsTopOf (nameCount merges + min steps merges.length) id)
    ∧ (ids.map t.members).Perm (replayed merges steps)
  := by
  obtain ⟨last, hrun, hnodes⟩ := exists_run ht
  have hstart : IsPartition (.ofList (mentioned merges))
      (ofNames (mentioned merges) : Growth S).clusters :=
    (isOrderedPartition_singletons _).toIsPartition.perm (clusters_leaves merges).symm
  -- The first merges make a run of their own, and the later ones keep the nodes it has.
  rw [← List.take_append_drop steps merges] at hrun
  obtain ⟨g, hfirst, hrest⟩ := hrun.exists_of_append
  rw [List.take_append_drop] at hfirst
  have hsound := hfirst.isSound (isSound_ofNames _)
  have hforest := hfirst.isForest (isSound_ofNames _) (isForest_ofNames _)
  have htops := hfirst.topsAreCurrent hstart (topsAreCurrent_ofNames _)
  have hclusters : g.clusters.Perm (replayed merges steps) :=
    hfirst.clusters_perm (clusters_leaves merges)
  have hsize : g.nodes.size = nameCount merges + min steps merges.length := by
    rw [hfirst.size, size_nodes_ofNames, List.length_take, nameCount]
  have hgrown (id : Nat) (n : Node S) (hn : g.nodes[id]? = some n) : t.nodes[id]? = some n := by
    rw [hnodes]
    apply hrest.getElem? hn
  have hnodup : g.clusters.Nodup := by
    have hfit : AllFit (.ofList (mentioned merges)) merges :=
      allFit_of_fitsAt (exists_ofMerges_iff.mp ⟨t, ht⟩) fun x hx => NameSet.mem_ofList.mpr hx
    rw [hclusters.nodup_iff, replayed_eq]
    apply (hfit.isPartition steps).nodup
  -- The nodes on top are those of the clusters that are current after the first merges.
  use g.current.map Prod.snd
  constructor
  · apply List.Nodup.map_on _ (List.Nodup.of_map _ hnodup)
    rintro ⟨set, id⟩ he ⟨set', id'⟩ he' heq
    obtain rfl : id = id' := heq
    rw [hsound.eq_of_mem_current he he']
  constructor
  · intro id
    rw [← hsize, isTopOf_iff hgrown, List.mem_map]
    constructor
    · rintro ⟨e, he, rfl⟩
      use g.current_lt e he, hforest.not_isChild e he
    · rintro ⟨hid, htop⟩
      apply htops id hid htop
  · have hmembers : (g.current.map Prod.snd).map t.members = g.clusters := by
      rw [List.map_map]
      apply List.map_congr_left
      intro e he
      obtain ⟨n, hn, hset⟩ := hsound.members e.1 e.2 he
      rw [← hset]
      apply members_of_eq_some (hgrown e.2 n hn)
    rw [hmembers]
    apply hclusters

/-- The partition of some classes after so many merges of the sequence of a tree: the blocks are the
members of the nodes that are on top after so many merges, and the classes that are not mentioned.
The next merge joins two of them. -/
structure ReplaysAt (t : Dendrogram S) (classes : NameSet) (merges : List (Merge S))
    (steps : Nat) : Prop where
  isPartition : IsPartition classes (replay classes merges steps)
  length : (replay classes merges steps).length + min steps merges.length = classes.size
  sorted : (replay classes merges steps).Pairwise fun b c =>
    c.size < b.size ∨ c.size = b.size ∧ b.key ≤ c.key
  tops : ∃ ids : List Nat, ids.Nodup
    ∧ (∀ id, id ∈ ids ↔ t.IsTopOf (nameCount merges + min steps merges.length) id)
    ∧ (replay classes merges steps).Perm
      (ids.map t.members ++ (unmentioned classes merges).map .singleton)
  succ : ∀ h : steps < merges.length, merges[steps].Fits (replay classes merges steps)
    ∧ (replay classes merges (steps + 1)).Perm
      (replayStep (replay classes merges steps) merges[steps])
  of_le : merges.length ≤ steps → replay classes merges steps = replay classes merges merges.length

/-- The replay of the merges of a tree over classes that include all names mentioned. -/
theorem replay_reads_tops (ht : ofMerges merges = .ok t) {classes : NameSet}
    (hclasses : ∀ x ∈ mentioned merges, x ∈ classes) (steps : Nat) :
  t.ReplaysAt classes merges steps
  := by
  have hfit : AllFit classes merges := allFit_of_fitsAt (exists_ofMerges_iff.mp ⟨t, ht⟩) hclasses
  have hperm := replay_perm classes merges steps
  constructor
  · apply (hfit.isPartition steps).perm hperm.symm
  · rw [hperm.length_eq]
    apply hfit.length
  · apply NameSet.pairwise_sortBySize
  · obtain ⟨ids, hnodup, hids, hmembers⟩ := exists_tops ht steps
    use ids, hnodup, hids
    apply (hperm.trans (replayedFrom_perm hclasses steps)).trans
    apply hmembers.symm.append_right
  · intro h
    obtain ⟨hleft, hright, hdisjoint⟩ := hfit steps h
    constructor
    · use hperm.mem_iff.mpr hleft, hperm.mem_iff.mpr hright
    · apply (replay_perm classes merges (steps + 1)).trans
      rw [replayedFrom_succ h]
      apply replayStep_perm hperm.symm
  · intro h
    rw [replay, replay, ← replayedFrom, ← replayedFrom, replayedFrom_of_le h]

/-- After the first of two merges, with a class that neither of them mentions. -/
theorem replay_reads_tops_of_forest :
  let merges : List (Merge Float) :=
    [⟨.singleton "C", .singleton "A", 0.5⟩, ⟨.singleton "B", .singleton "D", 0.5⟩]
  let classes := NameSet.ofList ["E", "D", "C", "B", "A"]
  ∃ t, ofMerges merges = .ok t ∧ (∀ x ∈ mentioned merges, x ∈ classes)
    ∧ t.ReplaysAt classes merges 1
  := by
  intro merges classes
  obtain ⟨t, ht⟩ : ∃ t, ofMerges merges = .ok t := ⟨_, rfl⟩
  have hclasses : ∀ x ∈ mentioned merges, x ∈ classes := by decide +kernel
  use t, ht, hclasses
  apply replay_reads_tops ht hclasses

end Dendrogram

end Cohesion
