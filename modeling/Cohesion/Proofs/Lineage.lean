import Cohesion.Proofs.Dendrogram
import Mathlib.Logic.Relation

/-!
# Children and descendants

`t.IsChild id parent` says that a node is one of the two that another node joins, and
`t.Below id top` that it is `top` or one of its descendants.  In a tree of sound nodes every node
has members.  Those of a child are some of the members of its parent, but not all of them, and a
node is below at most one of the two children of a node.  `Dendrogram.induction_on` is the induction
over a tree from its leaves to its joins.
-/

namespace Cohesion

namespace Dendrogram

variable {S : Type} {t : Dendrogram S} {id l r top : Nat}

/-! ### The data of a node -/

/-- The nodes that a node joins; a leaf has none, and neither has a number without a node. -/
def children (t : Dendrogram S) (id : Nat) : Option (Nat × Nat) :=
  t.nodes[id]?.bind (·.children)

/-- The depth of a node, zero for a number without a node. -/
def depth (t : Dendrogram S) (id : Nat) : Nat :=
  match t.nodes[id]? with
  | none => 0
  | some n => n.depth

/-- The height of a node, zero for a number without a node. -/
def height [Score S] (t : Dendrogram S) (id : Nat) : S :=
  match t.nodes[id]? with
  | none => Score.zero
  | some n => n.height

theorem depth_of_eq_some {n : Node S} (h : t.nodes[id]? = some n) :
  t.depth id = n.depth
  := by
  rw [depth, h]

theorem height_of_eq_some [Score S] {n : Node S} (h : t.nodes[id]? = some n) :
  t.height id = n.height
  := by
  rw [height, h]

theorem children_of_eq_some {n : Node S} (h : t.nodes[id]? = some n) :
  t.children id = n.children
  := by
  rw [children, h, Option.bind_some]

/-- A node has two children exactly when it is one of the tree's nodes and stores them. -/
theorem children_eq_some_iff :
  t.children id = some (l, r) ↔ ∃ n, t.nodes[id]? = some n ∧ n.children = some (l, r)
  := Option.bind_eq_some_iff

theorem lt_size_of_children (h : t.children id = some (l, r)) :
  id < t.size
  := by
  obtain ⟨n, hn, -⟩ := children_eq_some_iff.mp h
  obtain ⟨hid, -⟩ := Array.getElem?_eq_some_iff.mp hn
  apply hid

theorem lt_size_of_children_ne_none (h : t.children id ≠ none) :
  id < t.size
  := by
  obtain ⟨⟨l, r⟩, hchildren⟩ := Option.ne_none_iff_exists'.mp h
  apply lt_size_of_children hchildren

/-- Children come before their parent in the numbering. -/
theorem lt_of_children (h : t.children id = some (l, r)) :
  l < id ∧ r < id
  := by
  obtain ⟨n, hn, hchildren⟩ := children_eq_some_iff.mp h
  obtain ⟨hid, rfl⟩ := Array.getElem?_eq_some_iff.mp hn
  apply t.childrenFirst id hid l r hchildren

/-- What holds of every node without children, and of a node if it holds of its two children, holds
of all nodes. -/
@[elab_as_elim]
theorem induction_on (t : Dendrogram S) {motive : Nat → Prop} (id : Nat)
    (leaf : ∀ id, t.children id = none → motive id)
    (join : ∀ id l r, t.children id = some (l, r) → motive l → motive r → motive id) :
  motive id
  := by
  induction id using Nat.strong_induction_on with
  | h id ih =>
    cases h : t.children id with
    | none => apply leaf id h
    | some lr =>
      obtain ⟨hl, hr⟩ := lt_of_children h
      apply join id lr.1 lr.2 h (ih lr.1 hl) (ih lr.2 hr)

/-! ### Descendants -/

/-- The node `id` is one of the two that `parent` joins. -/
def IsChild (t : Dendrogram S) (id parent : Nat) : Prop :=
  ∃ l r, t.children parent = some (l, r) ∧ (id = l ∨ id = r)

/-- The node `id` is `top` or a descendant of it. -/
def Below (t : Dendrogram S) : Nat → Nat → Prop :=
  Relation.ReflTransGen t.IsChild

/-- The node `id` is a descendant of `top`. -/
def StrictlyBelow (t : Dendrogram S) : Nat → Nat → Prop :=
  Relation.TransGen t.IsChild

theorem isChild_left (h : t.children id = some (l, r)) :
  t.IsChild l id
  := ⟨l, r, h, Or.inl rfl⟩

theorem isChild_right (h : t.children id = some (l, r)) :
  t.IsChild r id
  := ⟨l, r, h, Or.inr rfl⟩

/-- The children of a node are the two it stores, and no others. -/
theorem isChild_iff_of_children (h : t.children top = some (l, r)) :
  t.IsChild id top ↔ id = l ∨ id = r
  := by
  constructor
  · rintro ⟨l', r', h', hid⟩
    rw [h] at h'
    cases h'
    apply hid
  · intro hid
    use l, r

theorem IsChild.children_ne_none {parent : Nat} (h : t.IsChild id parent) :
  t.children parent ≠ none
  := by
  obtain ⟨l, r, hchildren, -⟩ := h
  rw [hchildren]
  apply Option.some_ne_none

/-- A child comes before its parent in the numbering. -/
theorem IsChild.lt {parent : Nat} (h : t.IsChild id parent) :
  id < parent
  := by
  obtain ⟨l, r, hchildren, rfl | rfl⟩ := h
  · apply (lt_of_children hchildren).1
  · apply (lt_of_children hchildren).2

theorem IsChild.parent_lt_size {parent : Nat} (h : t.IsChild id parent) :
  parent < t.size
  := by
  obtain ⟨l, r, hchildren, -⟩ := h
  apply lt_size_of_children hchildren

theorem Below.refl (t : Dendrogram S) (id : Nat) :
  t.Below id id
  := Relation.ReflTransGen.refl

/-- Being below is transitive. -/
theorem Below.trans {mid : Nat} (h : t.Below id mid) (h' : t.Below mid top) :
  t.Below id top
  := Relation.ReflTransGen.trans h h'

/-- What is below a node does not come after it in the numbering. -/
theorem Below.le (h : t.Below id top) :
  id ≤ top
  := by
  induction h with
  | refl => apply le_refl
  | tail _ hchild ih => apply ih.trans hchild.lt.le

theorem StrictlyBelow.below (h : t.StrictlyBelow id top) :
  t.Below id top
  := Relation.TransGen.to_reflTransGen h

/-- A descendant of a node is below one of its children. -/
theorem strictlyBelow_iff :
  t.StrictlyBelow id top ↔ ∃ c, t.Below id c ∧ t.IsChild c top
  := Relation.TransGen.tail'_iff

/-- Strictly below an inner node is what is below one of its two children. -/
theorem strictlyBelow_iff_of_children (h : t.children top = some (l, r)) :
  t.StrictlyBelow id top ↔ t.Below id l ∨ t.Below id r
  := by
  rw [strictlyBelow_iff]
  constructor
  · rintro ⟨c, hid, hc⟩
    rcases (isChild_iff_of_children h).mp hc with rfl | rfl
    · left
      apply hid
    · right
      apply hid
  · rintro (hid | hid)
    · use l, hid
      apply isChild_left h
    · use r, hid
      apply isChild_right h

/-- What is strictly below a node comes before it in the numbering. -/
theorem StrictlyBelow.lt (h : t.StrictlyBelow id top) :
  id < top
  := by
  obtain ⟨c, hid, hc⟩ := strictlyBelow_iff.mp h
  apply hid.le.trans_lt hc.lt

/-- Below a node are the node itself and what is strictly below it. -/
theorem below_iff :
  t.Below id top ↔ id = top ∨ t.StrictlyBelow id top
  := by
  rw [eq_comm]
  apply Relation.reflTransGen_iff_eq_or_transGen.trans
  rfl

/-- Below a leaf there is the leaf alone. -/
theorem below_iff_of_children_eq_none (h : t.children top = none) :
  t.Below id top ↔ id = top
  := by
  rw [below_iff]
  apply or_iff_left
  intro hid
  obtain ⟨c, -, hc⟩ := strictlyBelow_iff.mp hid
  apply hc.children_ne_none h

/-- Below an inner node are the node itself and what is below one of its two children. -/
theorem below_iff_of_children (h : t.children top = some (l, r)) :
  t.Below id top ↔ id = top ∨ t.Below id l ∨ t.Below id r
  := by
  rw [below_iff, strictlyBelow_iff_of_children h]

/-- Of two nodes above the same one, one is below the other if no node has two parents. -/
theorem Below.total (huniq : Relator.RightUnique t.IsChild) {a b : Nat} (ha : t.Below id a)
    (hb : t.Below id b) :
  t.Below a b ∨ t.Below b a
  := Relation.ReflTransGen.total_of_right_unique huniq ha hb

/-- Everything above a node of a subtree is in the subtree if its top has no parent. -/
theorem Below.of_not_isChild (huniq : Relator.RightUnique t.IsChild) {a : Nat}
    (h : t.Below id top) (htop : ∀ parent, ¬ t.IsChild top parent) (ha : t.Below id a) :
  t.Below a top
  := by
  rcases h.total huniq ha with htopa | hatop
  · rcases Relation.ReflTransGen.cases_head htopa with rfl | ⟨parent, hparent, -⟩
    · apply Below.refl
    · apply absurd hparent (htop parent)
  · apply hatop

/-! ### The members of descendants -/

variable [Score S]

/-- What soundness says of a node that joins two others. -/
theorem IsSound.of_children (ht : t.IsSound) (h : t.children id = some (l, r)) :
  l < t.size ∧ r < t.size
    ∧ (t.members l).Disjoint (t.members r) ∧ t.members id = t.members l ∪ t.members r
    ∧ t.depth id = 1 + max (t.depth l) (t.depth r)
  := by
  obtain ⟨n, hn, hchildren⟩ := children_eq_some_iff.mp h
  cases ht n (Array.mem_of_getElem? hn) with
  | leaf name => cases hchildren
  | join height hleft hright hdisjoint =>
    cases hchildren
    rw [members_of_eq_some hn, members_of_eq_some hleft, members_of_eq_some hright,
      depth_of_eq_some hn, depth_of_eq_some hleft, depth_of_eq_some hright]
    use (Array.getElem?_eq_some_iff.mp hleft).1, (Array.getElem?_eq_some_iff.mp hright).1,
      hdisjoint

/-- The two children of a node share no member. -/
theorem IsSound.disjoint_of_children (ht : t.IsSound) (h : t.children id = some (l, r)) :
  (t.members l).Disjoint (t.members r)
  := (ht.of_children h).2.2.1

/-- The members of an inner node are those of its two children together. -/
theorem IsSound.members_of_children (ht : t.IsSound) (h : t.children id = some (l, r)) :
  t.members id = t.members l ∪ t.members r
  := (ht.of_children h).2.2.2.1

/-- A node without children is the leaf of a class. -/
theorem IsSound.exists_members_eq_singleton (ht : t.IsSound) (h : id < t.size)
    (hchildren : t.children id = none) :
  ∃ name, t.members id = .singleton name
  := by
  obtain ⟨n, hn⟩ : ∃ n, t.nodes[id]? = some n := ⟨_, Array.getElem?_eq_getElem h⟩
  rw [members_of_eq_some hn]
  rw [children_of_eq_some hn] at hchildren
  cases ht n (Array.mem_of_getElem? hn) with
  | leaf name =>
    use name
    rfl
  | join => cases hchildren

/-- A leaf has depth zero. -/
theorem IsSound.depth_of_children_eq_none (ht : t.IsSound) (h : t.children id = none) :
  t.depth id = 0
  := by
  cases hn : t.nodes[id]? with
  | none => rw [depth, hn]
  | some n =>
    rw [depth_of_eq_some hn]
    rw [children_of_eq_some hn] at h
    cases ht n (Array.mem_of_getElem? hn) with
    | leaf name => rfl
    | join => cases h

/-- Every node of a sound tree has a member. -/
theorem IsSound.members_ne_empty (ht : t.IsSound) (h : id < t.size) :
  t.members id ≠ ∅
  := by
  induction id using t.induction_on with
  | leaf id hchildren =>
    obtain ⟨name, hname⟩ := ht.exists_members_eq_singleton h hchildren
    apply NameSet.ne_empty_iff.mpr
    use name
    rw [hname]
    apply NameSet.mem_singleton.mpr rfl
  | join id l r hchildren ihl ihr =>
    obtain ⟨x, hx⟩ := NameSet.ne_empty_iff.mp (ihl (ht.of_children hchildren).1)
    apply NameSet.ne_empty_iff.mpr
    use x
    rw [ht.members_of_children hchildren]
    apply NameSet.mem_union.mpr (Or.inl hx)

/-- The sizes of the two children, both positive, add up to the size of their parent. -/
theorem IsSound.size_of_children (ht : t.IsSound) (h : t.children id = some (l, r)) :
  (t.members id).size = (t.members l).size + (t.members r).size
    ∧ 0 < (t.members l).size ∧ 0 < (t.members r).size
  := by
  obtain ⟨hl, hr, hdisjoint, hmembers, -⟩ := ht.of_children h
  use hmembers ▸ NameSet.size_union hdisjoint
  constructor
  · apply NameSet.size_pos_iff.mpr (ht.members_ne_empty hl)
  · apply NameSet.size_pos_iff.mpr (ht.members_ne_empty hr)

/-- A parent has more members than its child. -/
theorem IsSound.size_lt_of_isChild (ht : t.IsSound) {parent : Nat} (h : t.IsChild id parent) :
  (t.members id).size < (t.members parent).size
  := by
  obtain ⟨l, r, hchildren, hid⟩ := h
  have hsize := ht.size_of_children hchildren
  rcases hid with rfl | rfl
  · omega
  · omega

/-- The members of a node are members of every node above it. -/
theorem IsSound.mem_of_below (ht : t.IsSound) (h : t.Below id top) {x : String}
    (hx : x ∈ t.members id) :
  x ∈ t.members top
  := by
  induction h with
  | refl => apply hx
  | tail _ hchild ih =>
    obtain ⟨l, r, hchildren, hid⟩ := hchild
    rw [ht.members_of_children hchildren]
    apply NameSet.mem_union.mpr
    rcases hid with rfl | rfl
    · apply Or.inl ih
    · apply Or.inr ih

/-- No node is below both children of a node. -/
theorem IsSound.not_below_right (ht : t.IsSound) (h : t.children top = some (l, r))
    (hl : t.Below id l) :
  ¬ t.Below id r
  := by
  intro hr
  obtain ⟨x, hx⟩ := NameSet.ne_empty_iff.mp
    (ht.members_ne_empty (hl.le.trans_lt (ht.of_children h).1))
  apply ht.disjoint_of_children h x (ht.mem_of_below hl hx) (ht.mem_of_below hr hx)

end Dendrogram

end Cohesion
