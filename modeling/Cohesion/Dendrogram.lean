import Cohesion.Merge

/-!
# Dendrograms

A `Dendrogram` is the binary tree that a merge sequence encodes.  Its nodes are numbered in the
order in which they arise: first a leaf for every class, then one node for every merge, whose
children are the nodes of its two sides.  Children therefore have smaller numbers than their
parents, which is part of the type and lets every walk down the tree end.

`Dendrogram.ofMerges` rebuilds the tree and fails at the first step that joins overlapping sets or a
set that is no current cluster.
-/

namespace Cohesion

/-- A node of a dendrogram. -/
structure Dendrogram.Node (S : Type) where
  members : NameSet
  /-- The score of the merge that made the node, and zero for a leaf. -/
  height : S
  /-- The length of the longest path down to a leaf. -/
  depth : Nat
  /-- The numbers of the two nodes that were joined; a leaf has none. -/
  children : Option (Nat × Nat)
  deriving DecidableEq

/-- Nodes of which every child has a smaller number than its parent. -/
def Dendrogram.ChildrenFirst {S : Type} (nodes : Array (Node S)) : Prop :=
  ∀ (id : Nat) (h : id < nodes.size) (l r : Nat), nodes[id].children = some (l, r) → l < id ∧ r < id

/-- The tree of a merge sequence. -/
structure Dendrogram (S : Type) where
  nodes : Array (Dendrogram.Node S)
  childrenFirst : Dendrogram.ChildrenFirst nodes

/-- Why a step of a merge sequence cannot be made. -/
inductive MergeFault where
  | sidesOverlap (left right : NameSet)
  | notACluster (set : NameSet)
  deriving DecidableEq

/-- The fault in words; sets stand for themselves as their keys. -/
def MergeFault.message : MergeFault → String
  | .sidesOverlap left right => "sides overlap (" ++ left.key ++ " | " ++ right.key ++ ")"
  | .notACluster set => "\x7b" ++ set.key ++ "\x7d is not a current cluster"

namespace Dendrogram

variable {S : Type}

/-! ### Growing a tree -/

theorem ChildrenFirst.push {nodes : Array (Node S)} {n : Node S} (h : ChildrenFirst nodes)
    (hn : ∀ l r, n.children = some (l, r) → l < nodes.size ∧ r < nodes.size) :
  ChildrenFirst (nodes.push n)
  := by
  intro id hid l r hc
  rw [Array.getElem_push] at hc
  split at hc
  · rename_i hlt
    exact h id hlt l r hc
  · rename_i hge
    have hid' : id = nodes.size := by
      rw [Array.size_push] at hid
      omega
    rw [hid']
    exact hn l r hc

/-- A dendrogram in the making: its nodes so far, and the node of every current cluster. -/
structure Growth (S : Type) where
  nodes : Array (Node S)
  current : List (NameSet × Nat)
  childrenFirst : ChildrenFirst nodes
  current_lt : ∀ e ∈ current, e.2 < nodes.size

namespace Growth

/-- Nothing grown yet. -/
def start : Growth S where
  nodes := #[]
  current := []
  childrenFirst := by
    intro id h
    simp at h
  current_lt := by simp

/-- The node of a current cluster. -/
def find? (current : List (NameSet × Nat)) (set : NameSet) : Option Nat :=
  (current.find? fun e => e.1 = set).map (·.2)

theorem mem_of_find? {current : List (NameSet × Nat)} {set : NameSet} {id : Nat}
    (h : find? current set = some id) :
  (set, id) ∈ current
  := by
  obtain ⟨e, he, rfl⟩ := Option.map_eq_some_iff.1 h
  have heq : e.1 = set := by simpa using List.find?_some he
  rw [← heq]
  exact List.mem_of_find?_eq_some he

/-- The clusters other than `set`. -/
def without (current : List (NameSet × Nat)) (set : NameSet) : List (NameSet × Nat) :=
  current.filter fun e => e.1 ≠ set

/-- A new node that becomes the node of its members. -/
def push (g : Growth S) (n : Node S) (rest : List (NameSet × Nat))
    (hrest : ∀ e ∈ rest, e.2 < g.nodes.size)
    (hn : ∀ l r, n.children = some (l, r) → l < g.nodes.size ∧ r < g.nodes.size) : Growth S where
  nodes := g.nodes.push n
  current := (n.members, g.nodes.size) :: rest
  childrenFirst := g.childrenFirst.push hn
  current_lt := by
    intro e he
    rw [Array.size_push]
    rcases List.mem_cons.1 he with rfl | he
    · exact Nat.lt_succ_self _
    · exact Nat.lt_succ_of_lt (hrest e he)

/-- A leaf for a class, unless it has one. -/
def addLeaf [Score S] (g : Growth S) (name : String) : Growth S :=
  match find? g.current (.singleton name) with
  | some _ => g
  | none =>
    g.push ⟨.singleton name, Score.zero, 0, none⟩ g.current g.current_lt (by
      intro l r h
      simp at h)

theorem lt_of_find? {g : Growth S} {set : NameSet} {id : Nat} (h : find? g.current set = some id) :
  id < g.nodes.size
  := g.current_lt _ (mem_of_find? h)

theorem mem_of_mem_without {current : List (NameSet × Nat)} {set : NameSet} {e : NameSet × Nat}
    (h : e ∈ without current set) :
  e ∈ current
  := (List.mem_filter.1 h).1

/-- A node for a merge: the nodes of its sides are no longer current, and their parent is. -/
def join (g : Growth S) (m : Merge S) : Except MergeFault (Growth S) :=
  if m.left.Disjoint m.right then
    match hl : find? g.current m.left with
    | none => .error (.notACluster m.left)
    | some l =>
      match hr : find? (without g.current m.left) m.right with
      | none => .error (.notACluster m.right)
      | some r =>
        have hl' : l < g.nodes.size := lt_of_find? hl
        have hr' : r < g.nodes.size := g.current_lt _ (mem_of_mem_without (mem_of_find? hr))
        .ok (g.push
          ⟨m.merged, m.score, 1 + max g.nodes[l].depth g.nodes[r].depth, some (l, r)⟩
          (without (without g.current m.left) m.right)
          (by
            intro e he
            exact g.current_lt e (mem_of_mem_without (mem_of_mem_without he)))
          (by
            intro l' r' h
            simp only [Option.some.injEq, Prod.mk.injEq] at h
            obtain ⟨rfl, rfl⟩ := h
            exact ⟨hl', hr'⟩))
  else .error (.sidesOverlap m.left m.right)

/-- All merges one after the other, the first of which has the number `step`. -/
def joinAll (g : Growth S) (step : Nat) : List (Merge S) → Except (Nat × MergeFault) (Growth S)
  | [] => .ok g
  | m :: ms =>
    match g.join m with
    | .error fault => .error (step, fault)
    | .ok g' => g'.joinAll (step + 1) ms

end Growth

/-- The classes of a merge sequence in the order in which it mentions them. -/
def mentioned (merges : List (Merge S)) : List String :=
  merges.flatMap fun m => m.left.names ++ m.right.names

/-- The tree of a merge sequence, or the number of the first step that cannot be made and why. -/
def ofMerges [Score S] (merges : List (Merge S)) : Except (Nat × MergeFault) (Dendrogram S) :=
  let leaves := (mentioned merges).foldl Growth.addLeaf Growth.start
  match leaves.joinAll 0 merges with
  | .error fault => .error fault
  | .ok g => .ok ⟨g.nodes, g.childrenFirst⟩

/-- The tree without nodes. -/
def empty : Dendrogram S :=
  ⟨Growth.start.nodes, Growth.start.childrenFirst⟩

/-! ### Reading a tree -/

/-- The number of nodes. -/
def size (t : Dendrogram S) : Nat :=
  t.nodes.size

/-- The members of a node, none for a number without a node. -/
def members (t : Dendrogram S) (id : Nat) : NameSet :=
  match t.nodes[id]? with
  | none => ∅
  | some n => n.members

/-- The node with the most members, and the latest of those. -/
def root? (t : Dendrogram S) : Option Nat :=
  (List.range t.size).foldl (fun best id =>
    match best with
    | none => some id
    | some b => if (t.members b).size ≤ (t.members id).size then some id else some b) none

/-- The number of classes under the root. -/
def classCount (t : Dendrogram S) : Nat :=
  match t.root? with
  | none => 0
  | some root => (t.members root).size

/-- The classes of the leaves below a node, those of the left child first. -/
def leaves (t : Dendrogram S) (id : Nat) : List String :=
  if h : id < t.nodes.size then
    match hc : t.nodes[id].children with
    | none => t.nodes[id].members.names
    | some (l, r) =>
      have := t.childrenFirst id h l r hc
      t.leaves l ++ t.leaves r
  else []
termination_by id
decreasing_by all_goals omega

/-- The topmost nodes of the tree below `id` that are no leaves and whose height passes a test, from
left to right: nothing below a node that passes is looked at. -/
def topmost (t : Dendrogram S) (passes : S → Bool) (id : Nat) : List Nat :=
  if h : id < t.nodes.size then
    match hc : t.nodes[id].children with
    | none => []
    | some (l, r) =>
      have := t.childrenFirst id h l r hc
      if passes t.nodes[id].height then [id]
      else t.topmost passes l ++ t.topmost passes r
  else []
termination_by id
decreasing_by all_goals omega

end Dendrogram

end Cohesion
