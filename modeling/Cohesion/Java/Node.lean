import Cohesion.Java.Source

/-!
# Syntax trees

A `Node` of the syntax tree of a source file has a kind, the field of its parent that it fills, and
the offsets of its text.  Keywords are anonymous nodes, everything else the program looks at is a
named one.  `Node.ofRows?` builds a tree from the list of its nodes in pre-order, each with its depth.
The functions on nodes come with the lemma that what they find is smaller than the node they search.
-/

namespace Cohesion.Java

/-- What is known about a node apart from its children. -/
structure Label where
  kind : String
  /-- The field that the node fills in its parent, empty if it fills none. -/
  field : String
  start : Nat
  stop : Nat
  /-- Keywords are anonymous. -/
  isNamed : Bool
  /-- Whether the node stands for text that is missing from the source. -/
  isMissing : Bool
  deriving DecidableEq

/-- A node of a syntax tree. -/
inductive Node where
  | mk (label : Label) (children : List Node)

/-- A node in a pre-order listing of a tree. -/
structure NodeRow where
  depth : Nat
  label : Label

namespace Node

def label : Node → Label
  | mk label _ => label

/-- All children, in the order of the source. -/
def children : Node → List Node
  | mk _ children => children

/-- The kind of a node. -/
def kind (n : Node) : String :=
  n.label.kind

/-- The text of a node. -/
def text (n : Node) (s : Source) : String :=
  s.slice n.label.start n.label.stop

/-- The children that are no keywords. -/
def namedChildren (n : Node) : List Node :=
  n.children.filter (·.label.isNamed)

/-- The first child that fills a field. -/
def child? (n : Node) (field : String) : Option Node :=
  n.children.find? (·.label.field = field)

/-- All children that fill a field. -/
def childrenAt (n : Node) (field : String) : List Node :=
  n.children.filter (·.label.field = field)

/-- The first child that is no keyword. -/
def firstNamed? (n : Node) : Option Node :=
  n.namedChildren.head?

/-- The last child that is no keyword. -/
def lastNamed? (n : Node) : Option Node :=
  n.namedChildren.getLast?

/-! ### Size -/

mutual

/-- The number of nodes of a tree. -/
def size : Node → Nat
  | mk _ children => 1 + sizeOfAll children

/-- The number of nodes of several trees. -/
def sizeOfAll : List Node → Nat
  | [] => 0
  | n :: ns => n.size + sizeOfAll ns

end

theorem size_le_sizeOfAll {n : Node} {ns : List Node} (h : n ∈ ns) :
  n.size ≤ sizeOfAll ns
  := by
  induction ns with
  | nil => simp at h
  | cons m ms ih =>
    rw [sizeOfAll]
    rcases List.mem_cons.1 h with rfl | h
    · omega
    · have := ih h
      omega

theorem size_eq (n : Node) :
  n.size = 1 + sizeOfAll n.children
  := by
  cases n
  rw [size, children]

theorem size_lt_of_mem {c n : Node} (h : c ∈ n.children) :
  c.size < n.size
  := by
  have := size_le_sizeOfAll h
  rw [size_eq n]
  omega

theorem mem_of_mem_namedChildren {c n : Node} (h : c ∈ n.namedChildren) :
  c ∈ n.children
  := (List.mem_filter.1 h).1

theorem size_lt_of_mem_namedChildren {c n : Node} (h : c ∈ n.namedChildren) :
  c.size < n.size
  := size_lt_of_mem (mem_of_mem_namedChildren h)

theorem size_lt_of_child? {c n : Node} {field : String} (h : n.child? field = some c) :
  c.size < n.size
  := size_lt_of_mem (List.mem_of_find?_eq_some h)

theorem size_lt_of_firstNamed? {c n : Node} (h : n.firstNamed? = some c) :
  c.size < n.size
  := size_lt_of_mem_namedChildren (List.mem_of_head? h)

theorem size_lt_of_lastNamed? {c n : Node} (h : n.lastNamed? = some c) :
  c.size < n.size
  := size_lt_of_mem_namedChildren (List.mem_of_getLast? h)

theorem sizeOfAll_filter_le (p : Node → Bool) (ns : List Node) :
  sizeOfAll (ns.filter p) ≤ sizeOfAll ns
  := by
  induction ns with
  | nil => simp
  | cons m ms ih =>
    rw [List.filter_cons]
    split
    · rw [sizeOfAll, sizeOfAll]
      omega
    · rw [sizeOfAll]
      omega

theorem sizeOfAll_namedChildren_lt (n : Node) :
  sizeOfAll n.namedChildren < n.size
  := by
  have := sizeOfAll_filter_le (·.label.isNamed) n.children
  rw [size_eq]
  rw [namedChildren]
  omega

/-! ### Walking -/

mutual

/-- All nodes of a tree, every node before its children. -/
def preorder : Node → List Node
  | mk label children => mk label children :: preorderOfAll children

/-- All nodes of several trees, one tree after the other. -/
def preorderOfAll : List Node → List Node
  | [] => []
  | n :: ns => n.preorder ++ preorderOfAll ns

end

/-- Whether the source has a syntax error somewhere below a node. -/
def hasError (n : Node) : Bool :=
  n.preorder.any fun m => m.kind = "ERROR" || m.label.isMissing

/-! ### Listings -/

/-- A row put in front of trees with their depths: the deeper trees that follow it become its
children. -/
def addRow (row : NodeRow) (forest : List (Nat × Node)) : List (Nat × Node) :=
  let below := forest.takeWhile fun t => row.depth < t.1
  let beside := forest.dropWhile fun t => row.depth < t.1
  (row.depth, mk row.label (below.map (·.2))) :: beside

/-- The tree of a pre-order listing. -/
def ofRows? (rows : List NodeRow) : Option Node :=
  match rows.foldr addRow [] with
  | (_, n) :: _ => some n
  | [] => none

end Node

end Cohesion.Java
