import Cohesion.Java.Node
import Mathlib.Data.List.Infix
import Mathlib.Data.List.Lex
import Mathlib.Logic.Relation

/-!
# Places in a syntax tree

A `Place` is a node together with the way that leads to it from the root, so that equal nodes at
different places of a tree are told apart.  What is below a place starts with its path.  The children
of a place are apart: no place is below two of them.  `Place.preorder` lists what is reached from a
place through named children, with paths that ascend: `Place.mem_preorder`,
`Place.pairwise_preorder`.
-/

namespace Cohesion.Java

/-- A node with its place in a tree: the number of the child to take at each level from the root
down. -/
structure Place where
  path : List Nat
  node : Node

namespace Place

/-- The root of a tree. -/
def ofRoot (root : Node) : Place :=
  ⟨[], root⟩

/-- All children, in the order of the source. -/
def children (p : Place) : List Place :=
  p.node.children.mapIdx fun i c => ⟨p.path ++ [i], c⟩

/-- The children that are no keywords. -/
def namedChildren (p : Place) : List Place :=
  p.children.filter (·.node.label.isNamed)

/-- The first child that fills a field. -/
def child? (p : Place) (field : String) : Option Place :=
  p.children.find? (·.node.label.field = field)

/-- The place `q` is `p` or below it. -/
def Contains (p q : Place) : Prop :=
  p.path <+: q.path

/-- The place `q` is below `p`. -/
def Above (p q : Place) : Prop :=
  ∃ i rest, q.path = p.path ++ i :: rest

/-- Neither of two places contains the other one. -/
def Apart (p q : Place) : Prop :=
  ¬ p.Contains q ∧ ¬ q.Contains p

/-- The place `p` and all that is below it comes before `q`. -/
def Before (p q : Place) : Prop :=
  ∃ above i j restp restq, i < j ∧ p.path = above ++ i :: restp ∧ q.path = above ++ j :: restq

variable {p q r c : Place} {field : String}

/-! ### Nodes without their places -/

/-- The nodes at the children of a place are the children of its node. -/
theorem map_node_children (p : Place) :
  p.children.map node = p.node.children
  := by
  apply List.ext_getElem
  · rw [List.length_map, children, List.length_mapIdx]
  · intro i _ _
    rw [List.getElem_map]
    simp only [children, List.getElem_mapIdx]

/-- The nodes at the named children of a place are the named children of its node. -/
theorem map_node_namedChildren (p : Place) :
  p.namedChildren.map node = p.node.namedChildren
  := by
  rw [Node.namedChildren, ← map_node_children, List.filter_map]
  rfl

/-- The node at the child of a place at a field is the child of its node at that field. -/
theorem map_node_child? (p : Place) (field : String) :
  (p.child? field).map node = p.node.child? field
  := by
  rw [Node.child?, ← map_node_children, List.find?_map]
  rfl

theorem node_mem_namedChildren (h : c ∈ p.namedChildren) :
  c.node ∈ p.node.namedChildren
  := by
  rw [← map_node_namedChildren]
  apply List.mem_map_of_mem h

/-- A named child is smaller than its parent, so that recursions into named children end. -/
theorem size_lt_of_mem_namedChildren (h : c ∈ p.namedChildren) :
  c.node.size < p.node.size
  := Node.size_lt_of_mem_namedChildren (node_mem_namedChildren h)

/-! ### Below a place -/

theorem Contains.refl (p : Place) :
  p.Contains p
  := List.prefix_refl p.path

/-- Containment of places is transitive. -/
theorem Contains.trans (h : p.Contains q) (h' : q.Contains r) :
  p.Contains r
  := List.IsPrefix.trans h h'

theorem Above.contains (h : p.Above q) :
  p.Contains q
  := by
  obtain ⟨i, rest, hpath⟩ := h
  rw [Contains, hpath]
  apply List.prefix_append

/-- A place above another is above everything that one contains. -/
theorem Above.of_contains (h : p.Above q) (hq : q.Contains r) :
  p.Above r
  := by
  obtain ⟨i, rest, hpath⟩ := h
  obtain ⟨more, hmore⟩ := hq
  use i, rest ++ more
  rw [← hmore, hpath, List.append_assoc, List.cons_append]

/-- A place is not contained in what stands below it. -/
theorem Above.not_contains (h : p.Above q) :
  ¬ q.Contains p
  := by
  obtain ⟨i, rest, hpath⟩ := h
  intro hqp
  have hle := hqp.length_le
  rw [hpath, List.length_append, List.length_cons] at hle
  omega

/-- A place comes before what stands below it. -/
theorem Above.lt (h : p.Above q) :
  p.path < q.path
  := by
  obtain ⟨i, rest, hpath⟩ := h
  rw [hpath]
  nth_rewrite 1 [← List.append_nil p.path]
  apply List.append_left_lt
  apply List.nil_lt_cons

theorem Apart.symm (h : p.Apart q) :
  q.Apart p
  := And.symm h

instance : Std.Symm Apart where
  symm _ _ := Apart.symm

/-- Places within two places apart are apart. -/
theorem Apart.of_contains {p' q' : Place} (h : p.Apart q) (hp : p.Contains p')
    (hq : q.Contains q') :
  p'.Apart q'
  := by
  -- Two beginnings of one path are comparable.
  constructor
  · intro hle
    obtain hpq | hqp := List.prefix_or_prefix_of_prefix (hp.trans hle) hq
    · apply h.1 hpq
    · apply h.2 hqp
  · intro hle
    obtain hpq | hqp := List.prefix_or_prefix_of_prefix hp (hq.trans hle)
    · apply h.1 hpq
    · apply h.2 hqp

/-- Places within two places, the one before the other, stand in the same order. -/
theorem Before.of_contains {p' q' : Place} (h : p.Before q) (hp : p.Contains p')
    (hq : q.Contains q') :
  p'.Before q'
  := by
  obtain ⟨above, i, j, restp, restq, hij, hpath, hpath'⟩ := h
  obtain ⟨morep, hmorep⟩ := hp
  obtain ⟨moreq, hmoreq⟩ := hq
  use above, i, j, restp ++ morep, restq ++ moreq, hij
  rw [← hmorep, ← hmoreq, hpath, hpath']
  simp only [List.append_assoc, List.cons_append, and_self]

/-- The order of two places apart is that of their paths. -/
theorem Before.lt (h : p.Before q) :
  p.path < q.path
  := by
  obtain ⟨above, i, j, restp, restq, hij, hpath, hpath'⟩ := h
  rw [hpath, hpath']
  apply List.append_left_lt
  apply List.Lex.rel hij

/-- Places of which one is before the other are apart. -/
theorem Before.apart (h : p.Before q) :
  p.Apart q
  := by
  obtain ⟨above, i, j, restp, restq, hij, hpath, hpath'⟩ := h
  rw [Apart, Contains, Contains, hpath, hpath', List.prefix_append_right_inj,
    List.prefix_append_right_inj, List.cons_prefix_cons, List.cons_prefix_cons]
  constructor
  · rintro ⟨rfl, -⟩
    apply Nat.lt_irrefl _ hij
  · rintro ⟨rfl, -⟩
    apply Nat.lt_irrefl _ hij

/-! ### Children -/

/-- The children of a place are at its path with an index added, each with the node at that index. -/
theorem mem_children :
  c ∈ p.children ↔ ∃ i, ∃ h : i < p.node.children.length, c = ⟨p.path ++ [i], p.node.children[i]⟩
  := by
  rw [children, List.mem_mapIdx]
  simp only [eq_comm]

theorem above_of_mem_children (h : c ∈ p.children) :
  p.Above c
  := by
  obtain ⟨i, _, rfl⟩ := mem_children.mp h
  use i, []

theorem above_of_mem_namedChildren (h : c ∈ p.namedChildren) :
  p.Above c
  := above_of_mem_children (List.mem_of_mem_filter h)

/-- A place is above its child at any field. -/
theorem above_of_child? (h : p.child? field = some c) :
  p.Above c
  := above_of_mem_children (List.mem_of_find?_eq_some h)

/-- The children of a place come in the order of the source. -/
theorem pairwise_children (p : Place) :
  p.children.Pairwise Before
  := by
  rw [children, List.pairwise_iff_getElem]
  intro i j hi hj hij
  rw [List.getElem_mapIdx, List.getElem_mapIdx]
  use p.path, i, j, [], []

/-- The named children of a place come in the order of the source. -/
theorem pairwise_namedChildren (p : Place) :
  p.namedChildren.Pairwise Before
  := (pairwise_children p).sublist List.filter_sublist

/-- The named children of a place are pairwise apart. -/
theorem pairwise_apart_namedChildren (p : Place) :
  p.namedChildren.Pairwise Apart
  := (pairwise_namedChildren p).imp Before.apart

/-! ### Lists of what is below some places -/

/-- What holds between all that is below some places, and in each of their lists, holds in these
lists one after the other. -/
theorem pairwise_flatMap {R S : Place → Place → Prop} {ps : List Place} {f : Place → List Place}
    (hps : ps.Pairwise R)
    (hR : ∀ {p q p' q'}, R p q → p.Contains p' → q.Contains q' → S p' q')
    (hbelow : ∀ p ∈ ps, ∀ q ∈ f p, p.Contains q) (hf : ∀ p ∈ ps, (f p).Pairwise S) :
  (ps.flatMap f).Pairwise S
  := by
  apply List.pairwise_flatMap.mpr
  use hf
  apply hps.imp_of_mem
  intro p q hp hq hpq p' hp' q' hq'
  apply hR hpq (hbelow p hp p' hp') (hbelow q hq q' hq')

/-! ### Pre-order -/

/-- What is reached from a place through named children, every place before what is below it. -/
def preorder (p : Place) : List Place :=
  p :: p.namedChildren.attach.flatMap fun ⟨c, h⟩ =>
    have := size_lt_of_mem_namedChildren h
    c.preorder
termination_by p.node.size

/-- The place `q` is `p` or reached from it through named children. -/
def Reaches : Place → Place → Prop :=
  Relation.ReflTransGen fun p c => c ∈ p.namedChildren

/-- The places of a tree in preorder are its root, then those below each named child in turn. -/
theorem preorder_eq (p : Place) :
  p.preorder = p :: p.namedChildren.flatMap preorder
  := by
  rw [preorder]
  simp only [List.flatMap_subtype, List.unattach_attach]

/-- What holds of a place if it holds of its named children holds of all places. -/
@[elab_as_elim]
theorem induction_on {motive : Place → Prop} (p : Place)
    (step : ∀ p : Place, (∀ c ∈ p.namedChildren, motive c) → motive p) :
  motive p
  := by
  induction h : p.node.size using Nat.strong_induction_on generalizing p with
  | h n ih =>
    subst h
    apply step
    intro c hc
    apply ih _ (size_lt_of_mem_namedChildren hc) c rfl

/-- The preorder of a place lists exactly the places it reaches. -/
theorem mem_preorder :
  q ∈ p.preorder ↔ p.Reaches q
  := by
  induction p using induction_on with
  | step p ih =>
    rw [preorder_eq, List.mem_cons, List.mem_flatMap, Reaches, Relation.ReflTransGen.cases_head_iff,
      eq_comm]
    apply or_congr_right
    constructor
    · rintro ⟨c, hc, hq⟩
      use c, hc, (ih c hc).mp hq
    · rintro ⟨c, hc, hq⟩
      use c, hc, (ih c hc).mpr hq

/-- A place contains every place it reaches. -/
theorem Reaches.contains (h : p.Reaches q) :
  p.Contains q
  := by
  induction h with
  | refl => apply Contains.refl
  | tail _ hc ih =>
    apply ih.trans (above_of_mem_namedChildren hc).contains

/-- The paths of a pre-order ascend. -/
theorem pairwise_preorder (p : Place) :
  p.preorder.Pairwise fun q r => q.path < r.path
  := by
  induction p using induction_on with
  | step p ih =>
    rw [preorder_eq, List.pairwise_cons]
    constructor
    · intro q hq
      obtain ⟨c, hc, hq⟩ := List.mem_flatMap.mp hq
      have habove := above_of_mem_namedChildren hc
      apply (habove.of_contains (mem_preorder.mp hq).contains).lt
    · apply pairwise_flatMap (pairwise_namedChildren p)
      · intro _ _ _ _ h hp hq
        apply (h.of_contains hp hq).lt
      · intro c _ q hq
        apply (mem_preorder.mp hq).contains
      · exact ih

end Place

end Cohesion.Java
