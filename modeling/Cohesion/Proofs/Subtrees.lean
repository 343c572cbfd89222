import Cohesion.Dendrogram.View
import Cohesion.Proofs.Selection

/-!
# Listing and copying subtrees

The leaves below a node can be listed one node at a time, with the nodes that remain to be looked at
on a stack.  At every stage the classes listed so far, followed by the leaves below the nodes that
remain, are the leaves of the whole subtree, and the listing ends: `LeafWalk.listed_append_of_reaches`
and `LeafWalk.reaches_leaves`.

A position in a subtree is the list of child numbers on the way down to it, zero for a left child
and one for a right child.  Every node of a subtree has exactly one position, and the view of the
subtree shows at each position the node that has it: `Dendrogram.Copies.rel_at?`.
-/

namespace Cohesion

namespace Dendrogram

variable {S : Type} {t : Dendrogram S} {id l r top : Nat}

/-! ### One node after the other -/

/-- A stage of a listing: the classes that are listed, and the nodes that remain to be looked at. -/
structure LeafWalk where
  listed : List String
  pending : List Nat

namespace LeafWalk

/-- The stage at which the whole subtree at `top` remains to be looked at. -/
def start (top : Nat) : LeafWalk :=
  ⟨[], [top]⟩

/-- The stage after the next node, if one remains.  The members of a leaf are listed, and in the
place of a join its children remain, the left one first. -/
def next? (t : Dendrogram S) : LeafWalk → Option LeafWalk
  | ⟨_, []⟩ => none
  | ⟨listed, id :: pending⟩ =>
    match t.children id with
    | none => some ⟨listed ++ (t.members id).names, pending⟩
    | some (l, r) => some ⟨listed, l :: r :: pending⟩

/-- The stage `s'` is `s` or a later one. -/
def Reaches (t : Dendrogram S) : LeafWalk → LeafWalk → Prop :=
  Relation.ReflTransGen fun s s' => s.next? t = some s'

variable {s s' s'' : LeafWalk}

theorem Reaches.of_next? (h : s.next? t = some s') :
  Reaches t s s'
  := Relation.ReflTransGen.single h

/-- Walks of the stack put together are a walk. -/
theorem Reaches.trans (h : Reaches t s s') (h' : Reaches t s' s'') :
  Reaches t s s''
  := Relation.ReflTransGen.trans h h'

/-- A leaf on top of the stack is listed and taken off. -/
theorem next?_of_children_eq_none (listed : List String) (pending : List Nat)
    (h : t.children id = none) :
  next? t ⟨listed, id :: pending⟩ = some ⟨listed ++ (t.members id).names, pending⟩
  := by
  rw [next?, h]

/-- An inner node on top of the stack gives way to its two children, the left one first. -/
theorem next?_of_children (listed : List String) (pending : List Nat)
    (h : t.children id = some (l, r)) :
  next? t ⟨listed, id :: pending⟩ = some ⟨listed, l :: r :: pending⟩
  := by
  rw [next?, h]

end LeafWalk

theorem leaves_eq_names (h : t.children id = none) :
  t.leaves id = (t.members id).names
  := by
  cases hn : t.nodes[id]? with
  | none =>
    rw [leaves_of_eq_none hn, members_of_eq_none hn]
    rfl
  | some n =>
    rw [children_of_eq_some hn] at h
    rw [leaves_of_children_eq_none hn h, members_of_eq_some hn]

namespace LeafWalk

variable {s s' : LeafWalk}

/-- The listing goes through a subtree and lists its leaves before it looks at what remains
besides. -/
theorem reaches_append_leaves (t : Dendrogram S) (listed : List String) (top : Nat)
    (pending : List Nat) :
  Reaches t ⟨listed, top :: pending⟩ ⟨listed ++ t.leaves top, pending⟩
  := by
  induction top using t.induction_on generalizing listed pending with
  | leaf top h =>
    rw [leaves_eq_names h]
    apply Reaches.of_next? (next?_of_children_eq_none listed pending h)
  | join top l r h ihl ihr =>
    rw [leaves_of_children h, ← List.append_assoc]
    apply (Reaches.of_next? (next?_of_children listed pending h)).trans
    apply (ihl listed (r :: pending)).trans
    apply ihr

/-- The listing of a subtree ends with its leaves. -/
theorem reaches_leaves (t : Dendrogram S) (top : Nat) :
  Reaches t (start top) ⟨t.leaves top, []⟩
  := reaches_append_leaves t [] top []

/-- One node moves no leaf away: it is listed, or the children of the node remain. -/
theorem listed_append_of_next? (h : s.next? t = some s') :
  s'.listed ++ s'.pending.flatMap t.leaves = s.listed ++ s.pending.flatMap t.leaves
  := by
  obtain ⟨listed, _ | ⟨id, pending⟩⟩ := s
  · cases h
  · rw [List.flatMap_cons]
    cases hchildren : t.children id with
    | none =>
      rw [next?_of_children_eq_none listed pending hchildren] at h
      cases h
      rw [leaves_eq_names hchildren, List.append_assoc]
    | some lr =>
      rw [next?_of_children listed pending hchildren] at h
      cases h
      rw [leaves_of_children hchildren, List.flatMap_cons, List.flatMap_cons, List.append_assoc]

/-- At every stage the classes listed and the leaves of what remains are all leaves. -/
theorem listed_append_of_reaches (h : Reaches t (start top) s) :
  s.listed ++ s.pending.flatMap t.leaves = t.leaves top
  := by
  induction h with
  | refl => apply List.append_nil
  | tail _ hnext ih => rw [listed_append_of_next? hnext, ih]

end LeafWalk

/-- A listing of the subtree at `id` ends, and always with `classes`, which are the members of `id`,
each of them once. -/
structure IsListing (t : Dendrogram S) (id : Nat) (classes : List String) : Prop where
  reached : LeafWalk.Reaches t (.start id) ⟨classes, []⟩
  eq_of_reached : ∀ listed, LeafWalk.Reaches t (.start id) ⟨listed, []⟩ → listed = classes
  nodup : classes.Nodup
  mem_iff : ∀ x, x ∈ classes ↔ x ∈ t.members id

/-- The leaves below a node list its members, each once. -/
theorem IsSound.isListing [Score S] (ht : t.IsSound) (id : Nat) :
  t.IsListing id (t.leaves id)
  := by
  constructor
  · apply LeafWalk.reaches_leaves
  · intro listed hlisted
    have hall := LeafWalk.listed_append_of_reaches hlisted
    rw [List.flatMap_nil, List.append_nil] at hall
    apply hall
  · apply ht.nodup_leaves
  · intro x
    rw [(ht.leaves_perm id).mem_iff, NameSet.mem_names]

/-! ### Positions -/

/-- The children of a node, the left one first. -/
def childList (t : Dendrogram S) (id : Nat) : List Nat :=
  match t.children id with
  | none => []
  | some (l, r) => [l, r]

/-- The node at a position of the subtree at `id`. -/
def follow? (t : Dendrogram S) (id : Nat) : List Nat → Option Nat
  | [] => some id
  | i :: path => (t.childList id)[i]?.bind fun c => t.follow? c path

theorem childList_of_children_eq_none (h : t.children id = none) :
  t.childList id = []
  := by
  rw [childList, h]

theorem childList_of_children (h : t.children id = some (l, r)) :
  t.childList id = [l, r]
  := by
  rw [childList, h]

/-- The child list of a node holds exactly its children. -/
theorem mem_childList_iff {parent : Nat} :
  id ∈ t.childList parent ↔ t.IsChild id parent
  := by
  cases h : t.children parent with
  | none =>
    rw [childList_of_children_eq_none h]
    apply iff_of_false List.not_mem_nil
    intro hid
    apply hid.children_ne_none h
  | some lr => rw [childList_of_children h, isChild_iff_of_children h, List.mem_pair]

/-- A path followed down from a node ends below it. -/
theorem below_of_follow? {path : List Nat} (h : t.follow? top path = some id) :
  t.Below id top
  := by
  induction path generalizing top with
  | nil =>
    cases h
    apply Below.refl
  | cons i path ih =>
    obtain ⟨c, hc, hid⟩ := Option.bind_eq_some_iff.mp h
    apply (ih hid).tail (mem_childList_iff.mp (List.mem_of_getElem? hc))

/-- Every node below another is at the end of a path down from it. -/
theorem exists_follow? (h : t.Below id top) :
  ∃ path, t.follow? top path = some id
  := by
  induction h with
  | refl =>
    use []
    rfl
  | tail _ hchild ih =>
    obtain ⟨path, hpath⟩ := ih
    obtain ⟨i, hi⟩ := List.mem_iff_getElem?.mp (mem_childList_iff.mpr hchild)
    use i :: path
    rw [follow?, hi, Option.bind_some, hpath]

/-- A node is not below children at two places. -/
theorem IsSound.eq_of_below_of_below [Score S] (ht : t.IsSound) {i j a b : Nat}
    (hi : (t.childList top)[i]? = some a) (hj : (t.childList top)[j]? = some b)
    (ha : t.Below id a) (hb : t.Below id b) :
  i = j
  := by
  cases h : t.children top with
  | none =>
    rw [childList_of_children_eq_none h] at hi
    cases hi
  | some lr =>
    rw [childList_of_children h] at hi hj
    rcases i with _ | _ | i
    · rcases j with _ | _ | j
      · rfl
      · cases hi
        cases hj
        apply absurd hb (ht.not_below_right h ha)
      · cases hj
    · rcases j with _ | _ | j
      · cases hi
        cases hj
        apply absurd ha (ht.not_below_right h hb)
      · rfl
      · cases hj
    · cases hi

/-- No way down from a child of `top` leads back to `top`. -/
theorem not_follow?_cons {i : Nat} {path : List Nat} :
  t.follow? top (i :: path) ≠ some top
  := by
  intro h
  obtain ⟨c, hc, htop⟩ := Option.bind_eq_some_iff.mp h
  have hchild := mem_childList_iff.mp (List.mem_of_getElem? hc)
  apply absurd hchild.lt (not_lt_of_ge (below_of_follow? htop).le)

/-- In a sound tree only one path leads from a node to a node below it. -/
theorem IsSound.eq_of_follow? [Score S] (ht : t.IsSound) {p q : List Nat}
    (hp : t.follow? top p = some id) (hq : t.follow? top q = some id) :
  p = q
  := by
  induction p generalizing top q with
  | nil =>
    cases hp
    cases q with
    | nil => rfl
    | cons j q => apply absurd hq not_follow?_cons
  | cons i p ih =>
    cases q with
    | nil =>
      cases hq
      apply absurd hp not_follow?_cons
    | cons j q =>
      obtain ⟨a, ha, hida⟩ := Option.bind_eq_some_iff.mp hp
      obtain ⟨b, hb, hidb⟩ := Option.bind_eq_some_iff.mp hq
      cases ht.eq_of_below_of_below ha hb (below_of_follow? hida) (below_of_follow? hidb)
      rw [ha] at hb
      cases hb
      rw [ih hida hidb]

/-- Every node of a subtree has exactly one position. -/
theorem IsSound.existsUnique_follow? [Score S] (ht : t.IsSound) (h : t.Below id top) :
  ∃! path, t.follow? top path = some id
  := by
  obtain ⟨path, hpath⟩ := exists_follow? h
  use path, hpath
  intro path' hpath'
  apply ht.eq_of_follow? hpath' hpath

/-! ### The view at a position -/

namespace View

/-- The members of the node at the top. -/
def members : View S → NameSet
  | .leaf members _ _ => members
  | .join members _ _ _ _ => members

/-- The height of the node at the top. -/
def height : View S → S
  | .leaf _ height _ => height
  | .join _ height _ _ _ => height

/-- The depth of the node at the top. -/
def depth : View S → Nat
  | .leaf _ _ depth => depth
  | .join _ _ depth _ _ => depth

/-- The views below the top, the left one first. -/
def children : View S → List (View S)
  | .leaf .. => []
  | .join _ _ _ left right => [left, right]

/-- The view at a position. -/
def at? (v : View S) : List Nat → Option (View S)
  | [] => some v
  | i :: path => v.children[i]?.bind fun w => w.at? path

end View

variable [Score S]

/-- The view of a leaf copies its members, height and depth. -/
theorem view?_of_children_eq_none (hid : id < t.size) (h : t.children id = none) :
  t.view? id = some (.leaf (t.members id) (t.height id) (t.depth id))
  := by
  have hlt : id < t.nodes.size := hid
  have hnode := Array.getElem?_eq_getElem hlt
  rw [children_of_eq_some hnode] at h
  rw [view?, dif_pos hlt, members_of_eq_some hnode, height_of_eq_some hnode, depth_of_eq_some hnode]
  split
  · rfl
  · rename_i l r hsome
    rw [h] at hsome
    cases hsome

/-- The view of an inner node joins the views of its children. -/
theorem view?_of_children {left right : View S} (h : t.children id = some (l, r))
    (hleft : t.view? l = some left) (hright : t.view? r = some right) :
  t.view? id = some (.join (t.members id) (t.height id) (t.depth id) left right)
  := by
  have hlt : id < t.nodes.size := lt_size_of_children h
  have hnode := Array.getElem?_eq_getElem hlt
  rw [children_of_eq_some hnode] at h
  rw [view?, dif_pos hlt, members_of_eq_some hnode, height_of_eq_some hnode, depth_of_eq_some hnode]
  split
  · rename_i hnone
    rw [h] at hnone
    cases hnone
  · rename_i l' r' hsome
    rw [h] at hsome
    cases hsome
    rw [hleft, hright]

/-- A view is the copy of a node if it holds the data of the node, and copies of its children if it
has any. -/
inductive Copies (t : Dendrogram S) : Nat → View S → Prop
  | leaf {id : Nat} (hid : id < t.size) (h : t.children id = none) :
      Copies t id (.leaf (t.members id) (t.height id) (t.depth id))
  | join {id l r : Nat} {left right : View S} (h : t.children id = some (l, r))
      (hleft : Copies t l left) (hright : Copies t r right) :
      Copies t id (.join (t.members id) (t.height id) (t.depth id) left right)

variable {v : View S}

/-- Every node of a sound tree has a view, which copies the tree below it. -/
theorem IsSound.exists_copies (ht : t.IsSound) (hid : id < t.size) :
  ∃ v, t.view? id = some v ∧ t.Copies id v
  := by
  induction id using t.induction_on with
  | leaf id h =>
    use .leaf (t.members id) (t.height id) (t.depth id), view?_of_children_eq_none hid h
    apply Copies.leaf hid h
  | join id l r h ihl ihr =>
    obtain ⟨hl, hr, -⟩ := ht.of_children h
    obtain ⟨left, hleft, hleft'⟩ := ihl hl
    obtain ⟨right, hright, hright'⟩ := ihr hr
    use .join (t.members id) (t.height id) (t.depth id) left right,
      view?_of_children h hleft hright
    apply Copies.join h hleft' hright'

/-- A copy has the leaves of the node it copies. -/
theorem Copies.leaves_eq (h : t.Copies id v) :
  v.leaves = t.leaves id
  := by
  induction h with
  | leaf hid h => rw [View.leaves, leaves_eq_names h]
  | join h hleft hright ihl ihr => rw [View.leaves, leaves_of_children h, ihl, ihr]

/-- There is one join less than there are leaves. -/
theorem Copies.size_eq (ht : t.IsSound) (h : t.Copies id v) :
  v.size = 2 * (t.members id).size - 1
  := by
  induction h with
  | leaf hid h =>
    obtain ⟨name, hname⟩ := ht.exists_members_eq_singleton hid h
    rw [View.size, hname, NameSet.size_singleton]
  | join h hleft hright ihl ihr =>
    obtain ⟨hsize, hl, hr⟩ := ht.size_of_children h
    rw [View.size, ihl, ihr, hsize]
    omega

/-- The view `v` has the data of the node `id` at its top, and children exactly if `id` is a join. -/
structure Shows (t : Dendrogram S) (id : Nat) (v : View S) : Prop where
  members_eq : v.members = t.members id
  height_eq : v.height = t.height id
  depth_eq : v.depth = t.depth id
  length_children : v.children.length = if t.children id = none then 0 else 2

/-- A copy shows the node it copies. -/
theorem Copies.shows (h : t.Copies id v) :
  t.Shows id v
  := by
  cases h with
  | leaf hid h =>
    constructor
    · rfl
    · rfl
    · rfl
    · rw [if_pos h, View.children, List.length_nil]
  | join h hleft hright =>
    constructor
    · rfl
    · rfl
    · rfl
    · rw [h]
      rfl

/-- The children of a copy are copies of the children. -/
theorem Copies.children (h : t.Copies id v) :
  List.Forall₂ t.Copies (t.childList id) v.children
  := by
  cases h with
  | leaf hid h =>
    rw [childList_of_children_eq_none h]
    apply List.Forall₂.nil
  | join h hleft hright =>
    rw [childList_of_children h]
    apply List.Forall₂.cons hleft (.cons hright .nil)

/-- At every position of a copy there is the node with this position, and there is nothing at any
other. -/
theorem Copies.rel_at? (h : t.Copies id v) (path : List Nat) :
  Option.Rel t.Shows (t.follow? id path) (v.at? path)
  := by
  induction path generalizing id v with
  | nil => apply Option.Rel.some h.shows
  | cons i path ih =>
    rw [follow?, View.at?]
    have hlength := h.children.length_eq
    by_cases hi : i < (t.childList id).length
    · have hi' := hlength ▸ hi
      rw [List.getElem?_eq_getElem hi, List.getElem?_eq_getElem hi', Option.bind_some,
        Option.bind_some]
      apply ih
      apply h.children.get hi hi'
    · rw [List.getElem?_eq_none (not_lt.mp hi), List.getElem?_eq_none (hlength ▸ not_lt.mp hi)]
      apply Option.Rel.none

/-- A view shows the subtree at a node.  The nodes of the subtree and the positions in it are the
same, at each position the view shows the node that has it, its leaves are those of the subtree from
left to right, and it has one node less than twice as many as there are members. -/
structure IsView (t : Dendrogram S) (id : Nat) (v : View S) : Prop where
  existsUnique_follow? : ∀ n, t.Below n id → ∃! path, t.follow? id path = some n
  rel_at? : ∀ path, Option.Rel t.Shows (t.follow? id path) (v.at? path)
  leaves_eq : v.leaves = t.leaves id
  size_eq : v.size = 2 * (t.members id).size - 1

/-- In the tree of a merge sequence the listing of the subtree at any node ends with the members of
the node, those of its left child first, and there is a view that shows the subtree. -/
theorem leaves_and_view {merges : List (Merge S)} (ht : ofMerges merges = .ok t)
    (hid : id < t.size) :
  t.IsListing id (t.leaves id)
    ∧ (∀ l r, t.children id = some (l, r) → t.leaves id = t.leaves l ++ t.leaves r)
    ∧ ∃ v, t.view? id = some v ∧ t.IsView id v
  := by
  have hsound := isSound_ofMerges ht
  use hsound.isListing id
  constructor
  · intro l r hchildren
    apply leaves_of_children hchildren
  · obtain ⟨v, hv, hcopies⟩ := hsound.exists_copies hid
    use v, hv
    constructor
    · intro n hn
      apply hsound.existsUnique_follow? hn
    · apply hcopies.rel_at?
    · apply hcopies.leaves_eq
    · apply hcopies.size_eq hsound

/-- The leaves stand in the order in which they were joined, whatever their names are. -/
theorem leaves_and_view_of_two_pairs :
  let ac := NameSet.ofList ["A", "C"]
  let bd := NameSet.ofList ["B", "D"]
  let merges : List (Merge Float) :=
    [⟨.singleton "C", .singleton "A", 0.4⟩, ⟨.singleton "D", .singleton "B", 0.3⟩, ⟨ac, bd, 0.1⟩]
  ∃ t, ofMerges merges = .ok t ∧ 6 < t.size ∧ t.IsListing 6 ["C", "A", "D", "B"]
    ∧ ∃ v, t.view? 6 = some v ∧ t.IsView 6 v
  := by
  intro ac bd merges
  have hread : (ofMerges merges).toOption.map (fun t =>
      (decide (6 < t.size), [6, 5, 4, 3, 2, 1, 0].map t.children,
        [3, 2, 1, 0].map fun id => (t.members id).names))
      = some (true, [some (4, 5), some (2, 3), some (0, 1), none, none, none, none],
        [["B"], ["D"], ["A"], ["C"]]) := by
    decide +kernel
  cases ht : ofMerges merges with
  | error fault =>
    rw [ht] at hread
    cases hread
  | ok t =>
    rw [ht] at hread
    simp only [Except.toOption, Option.map_some, Option.some.injEq, Prod.mk.injEq, List.map_cons,
      List.map_nil, List.cons.injEq, and_true, decide_eq_true_eq] at hread
    obtain ⟨hid, ⟨hsix, hfive, hfour, hthree, htwo, hone, hzero⟩, hb, hd, ha, hc⟩ := hread
    obtain ⟨hlisting, -, hview⟩ := leaves_and_view ht hid
    have hleaves : t.leaves 6 = ["C", "A", "D", "B"] := by
      rw [leaves_of_children hsix, leaves_of_children hfour, leaves_of_children hfive,
        leaves_eq_names hzero, leaves_eq_names hone, leaves_eq_names htwo, leaves_eq_names hthree,
        ha, hb, hc, hd]
      rfl
    use t, rfl, hid, hleaves ▸ hlisting

end Dendrogram

end Cohesion
