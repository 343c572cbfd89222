import Cohesion.Proofs.DeclaredTypes
import Cohesion.Proofs.Extraction

/-!
# Changing a recorded type

A tree with another node at some path is `n.modifyAt f path`.  If a recorded type is changed in such
a way that its label, the imports and the errors in it stay the same, then the facts of the source
file are those of before up to the facts about this type and the types nested in it:
`exists_extract_modifyAt`.  On the way from the root down to a recorded type every node is changed
in one child only, `Differs`, and every type in one member only, `DiffersInMember`.
-/

namespace Cohesion.Java

/-! ### Lists that differ in one place -/

/-- The second list has `x'` in a place where the first one has `x`. -/
def Replaces {α : Type} (x x' : α) (xs xs' : List α) : Prop :=
  ∃ before after, xs = before ++ x :: after ∧ xs' = before ++ x' :: after

namespace Replaces

variable {α β : Type} {x x' : α} {y y' : β} {xs xs' : List α} {p : α → Bool}

/-- A replacement in a list is one in the list with more put after it. -/
theorem append_right (h : Replaces x x' xs xs') (ys : List α) :
  Replaces x x' (xs ++ ys) (xs' ++ ys)
  := by
  obtain ⟨before, after, rfl, rfl⟩ := h
  use before, after ++ ys
  simp

/-- A replacement in a list is one in the list with more put before it. -/
theorem append_left (h : Replaces x x' xs xs') (ys : List α) :
  Replaces x x' (ys ++ xs) (ys ++ xs')
  := by
  obtain ⟨before, after, rfl, rfl⟩ := h
  use ys ++ before, after
  simp

/-- A filter that both elements pass keeps the replacement. -/
theorem filter (h : Replaces x x' xs xs') (hx : p x) (hx' : p x') :
  Replaces x x' (xs.filter p) (xs'.filter p)
  := by
  obtain ⟨before, after, rfl, rfl⟩ := h
  use before.filter p, after.filter p
  simp [hx, hx']

/-- A filter that neither element passes gives the same list before and after the replacement. -/
theorem filter_eq (h : Replaces x x' xs xs') (hx : ¬ p x) (hx' : ¬ p x') :
  xs'.filter p = xs.filter p
  := by
  obtain ⟨before, after, rfl, rfl⟩ := h
  simp [hx, hx']

/-- A search for what neither element is finds the same before and after the replacement. -/
theorem find?_eq (h : Replaces x x' xs xs') (hx : ¬ p x) (hx' : ¬ p x') :
  xs'.find? p = xs.find? p
  := by rw [← List.head?_filter, h.filter_eq hx hx', List.head?_filter]

/-- A replacement within what the element gives is a replacement within what the list gives. -/
theorem flatMap {f : α → List β} (h : Replaces x x' xs xs') (hf : Replaces y y' (f x) (f x')) :
  Replaces y y' (xs.flatMap f) (xs'.flatMap f)
  := by
  obtain ⟨before, after, rfl, rfl⟩ := h
  rw [List.flatMap_append, List.flatMap_cons, List.flatMap_append, List.flatMap_cons]
  apply (hf.append_right _).append_left

/-- Where both elements give the same list, the lists around them give the same. -/
theorem flatMap_eq {f : α → List β} (h : Replaces x x' xs xs') (hf : f x' = f x) :
  xs'.flatMap f = xs.flatMap f
  := by
  obtain ⟨before, after, rfl, rfl⟩ := h
  simp [hf]

/-- A partial map defined at both elements carries the replacement to their values. -/
theorem filterMap {f : α → Option β} (h : Replaces x x' xs xs') (hx : f x = some y)
    (hx' : f x' = some y') :
  Replaces y y' (xs.filterMap f) (xs'.filterMap f)
  := by
  obtain ⟨before, after, rfl, rfl⟩ := h
  use before.filterMap f, after.filterMap f
  simp [hx, hx']

/-- Where both elements have one value, the lists around them have the same values. -/
theorem map_eq {f : α → β} (h : Replaces x x' xs xs') (hf : f x' = f x) :
  xs'.map f = xs.map f
  := by
  obtain ⟨before, after, rfl, rfl⟩ := h
  simp [hf]

theorem filterMap_eq {f : α → Option β} (h : Replaces x x' xs xs') (hf : f x' = f x) :
  xs'.filterMap f = xs.filterMap f
  := by
  obtain ⟨before, after, rfl, rfl⟩ := h
  simp [List.filterMap_cons, hf]

/-- What is filtered out by a test that `x` and `x'` pass or fail together. -/
theorem filter_or_eq (h : Replaces x x' xs xs') (hx : p x' = p x) :
  Replaces x x' (xs.filter p) (xs'.filter p) ∨ xs'.filter p = xs.filter p
  := by
  by_cases hp : p x
  · exact Or.inl (h.filter hp (hx.trans hp))
  · exact Or.inr (h.filter_eq hp (by rw [hx]; exact hp))

end Replaces

/-! ### Changing a tree at a path -/

namespace Node

/-- The tree with the node at a path changed. -/
def modifyAt (f : Node → Node) : List Nat → Node → Node
  | [], n => f n
  | i :: path, .mk label children => .mk label (children.modify i (modifyAt f path))

/-- A change along a path of two parts is a change along the second part, made along the first. -/
theorem modifyAt_append (f : Node → Node) (path rest : List Nat) (n : Node) :
  n.modifyAt f (path ++ rest) = n.modifyAt (modifyAt f rest) path
  := by
  induction path generalizing n with
  | nil => rfl
  | cons i path ih =>
    cases n
    have hrest : modifyAt f (path ++ rest) = modifyAt (modifyAt f rest) path := funext ih
    rw [List.cons_append, modifyAt, hrest, modifyAt]

/-- The node `n'` is `n` with the child `x'` in the place of `x`. -/
structure Differs (x x' n n' : Node) : Prop where
  label_eq : n'.label = n.label
  children : Replaces x x' n.children n'.children

variable {x x' n n' : Node}

theorem Differs.kind_eq (h : Differs x x' n n') :
  n'.kind = n.kind
  := by rw [kind, h.label_eq, kind]

/-- Where the two parts have one label, the named children differ in that part, or they are the same
because it is not named. -/
theorem Differs.namedChildren_or_eq (h : Differs x x' n n') (hlabel : x'.label = x.label) :
  Replaces x x' n.namedChildren n'.namedChildren ∨ n'.namedChildren = n.namedChildren
  := h.children.filter_or_eq (p := fun c : Node => c.label.isNamed) (by rw [hlabel])

theorem Differs.namedChildren (h : Differs x x' n n') (hlabel : x'.label = x.label)
    (hnamed : x.label.isNamed) :
  Replaces x x' n.namedChildren n'.namedChildren
  := h.children.filter (p := fun c : Node => c.label.isNamed) hnamed (by rw [hlabel]; exact hnamed)

/-- The child at a field is the same in both nodes when the part they differ in stands at another
field. -/
theorem Differs.child?_eq (h : Differs x x' n n') (hlabel : x'.label = x.label) {field : String}
    (hfield : x.label.field ≠ field) :
  n'.child? field = n.child? field
  := by
  apply h.children.find?_eq
  · simpa using hfield
  · rw [hlabel]
    simpa using hfield

end Node

open Node

variable {s : Source} {path : String} {root n n' x x' : Node}

theorem modify_append_cons {α : Type} (f : α → α) (before : List α) (x : α) (after : List α) :
  (before ++ x :: after).modify before.length f = before ++ f x :: after
  := by
  induction before with
  | nil => rfl
  | cons y before ih => rw [List.cons_append, List.length_cons, List.modify_succ_cons, ih]; rfl

namespace Place

variable {p c d m : Place} {field : String}

/-- Changing a child changes its parent in one place. -/
theorem modifyAt_of_children_eq {before after : List Place}
    (h : p.children = before ++ c :: after) :
  c.path = p.path ++ [before.length] ∧ ∀ f,
    p.node.modifyAt f [before.length]
      = .mk p.node.label (before.map node ++ f c.node :: after.map node)
  := by
  constructor
  · have hget : p.children[before.length]? = some c := by
      rw [h, List.getElem?_append_right (Nat.le_refl _), Nat.sub_self, List.getElem?_cons_zero]
    rw [children, List.getElem?_mapIdx] at hget
    obtain ⟨_, -, rfl⟩ := Option.map_eq_some_iff.mp hget
    rfl
  · intro f
    have hchildren : p.node.children = before.map node ++ c.node :: after.map node := by
      rw [← map_node_children, h, List.map_append, List.map_cons]
    generalize p.node = n at hchildren
    cases n with
    | mk label children =>
      rw [Node.children] at hchildren
      have hf : Node.modifyAt f [] = f := rfl
      have hlength : before.length = (before.map node).length := by rw [List.length_map]
      rw [Node.modifyAt, hchildren, hf, hlength, modify_append_cons]
      rfl

/-- A node changed at one child differs from what it was in that child alone. -/
theorem differs_of_children_eq {before after : List Place} (h : p.children = before ++ c :: after)
    (f : Node → Node) :
  Differs c.node (f c.node) p.node (p.node.modifyAt f [before.length])
  := by
  rw [(modifyAt_of_children_eq h).2 f]
  constructor
  · rfl
  · use before.map node, after.map node
    rw [← map_node_children, h, List.map_append, List.map_cons]
    use rfl
    rfl

/-- Changing a child that is no keyword. -/
theorem exists_differs_of_mem_namedChildren (h : c ∈ p.namedChildren) :
  ∃ i, c.path = p.path ++ [i] ∧ ∀ f, Differs c.node (f c.node) p.node (p.node.modifyAt f [i])
  := by
  obtain ⟨before, after, hsplit⟩ := List.append_of_mem (List.mem_filter.mp h).1
  use before.length, (modifyAt_of_children_eq hsplit).1
  apply differs_of_children_eq hsplit

/-- Changing the child that fills a field. -/
theorem exists_differs_of_child? (h : p.child? field = some c) :
  c.node.label.field = field ∧ ∃ i, c.path = p.path ++ [i] ∧ ∀ f,
    Differs c.node (f c.node) p.node (p.node.modifyAt f [i])
      ∧ ((f c.node).label = c.node.label →
        (p.node.modifyAt f [i]).child? field = some (f c.node))
  := by
  obtain ⟨hfield, before, after, hsplit, hbefore⟩ := List.find?_eq_some_iff_append.mp h
  rw [decide_eq_true_iff] at hfield
  use hfield, before.length, (modifyAt_of_children_eq hsplit).1
  intro f
  use differs_of_children_eq hsplit f
  intro hlabel
  rw [(modifyAt_of_children_eq hsplit).2 f, Node.child?, List.find?_eq_some_iff_append]
  use by rw [hlabel, hfield, decide_eq_true_iff], before.map node, after.map node, rfl
  intro a ha
  obtain ⟨b, hb, rfl⟩ := List.mem_map.mp ha
  apply hbefore b hb

end Place

/-! ### Imports and errors -/

/-- The paths of the static imports in a tree. -/
def staticPaths (s : Source) (n : Node) : List (List Char × Bool) :=
  (n.preorder.filter (·.kind = "import_declaration")).filterMap (Imports.staticPath? s)

/-- The imports of a tree are its static import paths, added one after another. -/
theorem ofTree_eq_foldl (s : Source) (root : Node) :
  Imports.ofTree s root = (staticPaths s root).foldl (fun imports i => imports.add i.1 i.2) .empty
  := by
  rw [Imports.ofTree, staticPaths]
  generalize Imports.empty = start
  induction root.preorder.filter (·.kind = "import_declaration") generalizing start with
  | nil => rfl
  | cons n ns ih =>
    rw [List.foldl_cons, ih, List.filterMap_cons, Imports.addDeclaration]
    cases Imports.staticPath? s n with
    | none => rfl
    | some i => rfl

/-- The static import paths of a node are its own, if it is an import, followed by those of its
children. -/
theorem staticPaths_eq (s : Source) (n : Node) :
  staticPaths s n
    = (if n.kind = "import_declaration" then (Imports.staticPath? s n).toList else [])
      ++ n.children.flatMap (staticPaths s)
  := by
  rw [staticPaths, preorder_eq_cons, ← List.singleton_append, List.filter_append,
    List.filterMap_append, List.filter_flatMap, List.filterMap_flatMap]
  congr 1
  rw [List.filter_singleton]
  by_cases hkind : n.kind = "import_declaration"
  · rw [if_pos hkind, decide_eq_true hkind, cond_true, List.filterMap_cons]
    cases Imports.staticPath? s n with
    | none => rfl
    | some i => rfl
  · rw [if_neg hkind, decide_eq_false hkind]
    rfl

/-- A node has an error exactly when it is one, is missing, or a child has one. -/
theorem hasError_eq (n : Node) :
  n.hasError = (n.kind = "ERROR" || n.label.isMissing || n.children.any hasError)
  := by
  rw [hasError, preorder_eq_cons, List.any_cons, List.any_flatMap]
  rfl

/-- The static path of an import is read off the kinds and texts of its children alone. -/
theorem staticPath?_eq (s : Source) (n : Node) :
  Imports.staticPath? s n
    = if n.children.any (·.kind = "static") then
        ((n.children.filter fun c =>
          c.kind = "scoped_identifier" || c.kind = "identifier").getLast?.map (·.text s)).map
            fun path => (path.toList, n.children.any (·.kind = "asterisk"))
      else none
  := by
  rw [Imports.staticPath?]
  cases n.children.any (·.kind = "static")
  · rfl
  · cases (n.children.filter _).getLast? <;> rfl

/-- The static import of a declaration depends on the labels of its children. -/
theorem staticPath?_eq_of_map_label (h : n'.children.map label = n.children.map label) :
  Imports.staticPath? s n' = Imports.staticPath? s n
  := by
  have hany (n : Node) (kind : String) :
      n.children.any (·.kind = kind) = (n.children.map label).any (Label.kind · = kind) := by
    rw [List.any_map]
    rfl
  have hlast (n : Node) :
      ((n.children.filter fun c =>
          c.kind = "scoped_identifier" || c.kind = "identifier").getLast?).map (·.text s)
        = (((n.children.map label).filter fun label =>
          label.kind = "scoped_identifier" || label.kind = "identifier").getLast?).map
            fun label => s.slice label.start label.stop := by
    rw [List.filter_map, List.getLast?_map, Option.map_map]
    rfl
  rw [staticPath?_eq, staticPath?_eq, hany n', hany n', hlast n', h, ← hany n, ← hany n, ← hlast n]

/-- Trees with the same label, the same static imports and errors in both or in none of them. -/
structure Exchangeable (s : Source) (x x' : Node) : Prop where
  label_eq : x'.label = x.label
  staticPaths_eq : staticPaths s x' = staticPaths s x
  hasError_eq : x'.hasError = x.hasError

/-- Two nodes that differ in exchangeable parts are exchangeable themselves. -/
theorem Exchangeable.of_differs (hx : Exchangeable s x x') (h : Differs x x' n n') :
  Exchangeable s n n'
  := by
  have hpath : Imports.staticPath? s n' = Imports.staticPath? s n :=
    staticPath?_eq_of_map_label (h.children.map_eq hx.label_eq)
  constructor
  · exact h.label_eq
  · rw [Java.staticPaths_eq, Java.staticPaths_eq, hpath, h.kind_eq,
      h.children.flatMap_eq hx.staticPaths_eq]
  · have hany : n'.children.any hasError = n.children.any hasError := by
      obtain ⟨before, after, hn, hn'⟩ := h.children
      simp [hn, hn', hx.hasError_eq]
    rw [Java.hasError_eq, Java.hasError_eq, hany, h.kind_eq, h.label_eq]

/-! ### Types that differ in one member -/

/-- The type `d'` is declared as `d` with the member `x'` in the place of `x`. -/
structure DiffersInMember (s : Source) (x x' d d' : Node) : Prop where
  label_eq : d'.label = d.label
  child?_eq : ∀ field, field ≠ "body" → d'.child? field = d.child? field
  interfacesOf_eq : interfacesOf s d' = interfacesOf s d
  members : Replaces x x' (membersOf d) (membersOf d') ∧ constantMembersOf d' = constantMembersOf d
    ∨ membersOf d' = membersOf d ∧ Replaces x x' (constantMembersOf d) (constantMembersOf d')

/-- Declarations that differ in one member have all their members the same but for that one. -/
theorem DiffersInMember.allMembers {d d' : Node} (h : DiffersInMember s x x' d d') :
  Replaces x x' (membersOf d ++ constantMembersOf d) (membersOf d' ++ constantMembersOf d')
  := by
  obtain ⟨hmembers, hconstants⟩ | ⟨hmembers, hconstants⟩ := h.members
  · rw [hconstants]
    apply hmembers.append_right
  · rw [hmembers]
    apply hconstants.append_left

/-- The body of a type is changed in one place. -/
theorem interfacesOf_eq_of_differs (h : Differs x x' n n') (hlabel : x'.label = x.label)
    (hlisted : x.kind = "super_interfaces" ∨ x.kind = "extends_interfaces" →
      listedTypes s x' = listedTypes s x) :
  interfacesOf s n' = interfacesOf s n
  := by
  rw [interfacesOf, interfacesOf]
  have hkind : x'.kind = x.kind := by rw [kind, hlabel, kind]
  obtain hnamed | hnamed := h.namedChildren_or_eq hlabel
  · by_cases hx : x.kind = "super_interfaces" ∨ x.kind = "extends_interfaces"
    · have hfilter := hnamed.filter
        (p := fun c : Node => c.kind = "super_interfaces" || c.kind = "extends_interfaces")
        (by simpa using hx) (by simpa [hkind] using hx)
      apply hfilter.flatMap_eq (hlisted hx)
    · rw [hnamed.filter_eq (by simpa using hx) (by simpa [hkind] using hx)]
  · rw [hnamed]

/-- A type declaration is no list of types, and its name as a type is its text. -/
theorem listedTypes_eq_of_differs (h : Differs x x' n n') (hlabel : x'.label = x.label)
    (htype : declaresType x) :
  listedTypes s n' = listedTypes s n
  := by
  have hkind : x'.kind = x.kind := by rw [kind, hlabel, kind]
  have hkinds : ∀ kind ∈ typeKinds, kind ≠ "type_list" ∧ kind ≠ "generic_type"
    ∧ kind ≠ "scoped_type_identifier" ∧ kind ≠ "annotated_type" ∧ kind ≠ "array_type" := by decide
  obtain ⟨hlist, hgeneric, hscoped, hannotated, harray⟩ :=
    hkinds x.kind (List.contains_iff_mem.mp htype)
  have hsimple : simpleType s x' = simpleType s x := by
    rw [simpleType_eq, simpleType_eq, hkind]
    split
    · apply absurd (by assumption) hgeneric
    · apply absurd (by assumption) hscoped
    · apply absurd (by assumption) hannotated
    · apply absurd (by assumption) harray
    · rw [text, hlabel, text]
  rw [listedTypes_eq, listedTypes_eq]
  obtain hnamed | hnamed := h.namedChildren_or_eq hlabel
  · apply hnamed.flatMap_eq
    rw [hkind, if_neg hlist, if_neg hlist, hsimple]
  · rw [hnamed]

/-- The members of a declaration whose body is not that of an enum are the named children of the
body. -/
theorem members_of_body {body : Node} (hbody : n.child? "body" = some body)
    (hkind : body.kind ≠ "enum_body") :
  membersOf n = body.namedChildren ∧ constantMembersOf n = []
  := by
  simp [membersOf, memberContainers, constantMembersOf, constantBodies, hbody, hkind]

/-- The members of an enum stand in its declarations part, and those of its constants in their
bodies. -/
theorem members_of_enumBody {body : Node} (hbody : n.child? "body" = some body)
    (hkind : body.kind = "enum_body") :
  membersOf n
      = (body.namedChildren.filter (·.kind = "enum_body_declarations")).flatMap namedChildren
    ∧ constantMembersOf n
      = ((body.namedChildren.filter (·.kind = "enum_constant")).filterMap
        (·.child? "body")).flatMap namedChildren
  := by
  simp [membersOf, memberContainers, constantMembersOf, constantBodies, hbody, hkind]

/-- Declarations whose bodies differ in one member differ in that member alone. -/
theorem differsInMember_of_body {body body' d d' : Node} (h : Differs body body' d d')
    (hlabel : body'.label = body.label) (hfield : body.label.field = "body")
    (hlisted : body.kind = "super_interfaces" ∨ body.kind = "extends_interfaces" →
      listedTypes s body' = listedTypes s body)
    (hmembers : Replaces x x' (membersOf d) (membersOf d')
        ∧ constantMembersOf d' = constantMembersOf d
      ∨ membersOf d' = membersOf d ∧ Replaces x x' (constantMembersOf d) (constantMembersOf d')) :
  DiffersInMember s x x' d d'
  := by
  use h.label_eq, ?_, interfacesOf_eq_of_differs h hlabel hlisted, hmembers
  intro field hne
  apply h.child?_eq hlabel
  rw [hfield]
  apply hne.symm

namespace Place

variable {c d m : Place}

theorem node_child? {p c : Place} {field : String} (h : p.child? field = some c) :
  p.node.child? field = some c.node
  := by rw [← map_node_child?, h, Option.map_some]

/-- Changing the children of a node that holds members of a type in one place. -/
theorem exists_differsInMember_of_holdsMembers (hc : d.HoldsMembers c) :
  ∃ rest, c.path = d.path ++ rest ∧ ∀ f x x', Exchangeable s c.node (f c.node) →
    listedTypes s (f c.node) = listedTypes s c.node →
    Replaces x x' c.node.namedChildren (f c.node).namedChildren →
    DiffersInMember s x x' d.node (d.node.modifyAt f rest)
      ∧ Exchangeable s d.node (d.node.modifyAt f rest)
  := by
  obtain ⟨hbody, hkind⟩ | @⟨body, c, hbody, hkind, hpart, hpartKind⟩
    | @⟨body, constant, c, hbody, hkind, hconstant, hconstantKind, hown⟩ := hc
  · -- The body of the type holds the members itself.
    obtain ⟨hfield, i, hpath, hdiffers⟩ := exists_differs_of_child? hbody
    use [i], hpath
    intro f x x' hf hlisted hmembers
    obtain ⟨houter, hchild⟩ := hdiffers f
    refine ⟨?_, hf.of_differs houter⟩
    have hkind' : (f c.node).kind ≠ "enum_body" := by
      rw [kind, hf.label_eq]
      exact hkind
    obtain ⟨hown, hnone⟩ := members_of_body (node_child? hbody) hkind
    obtain ⟨hown', hnone'⟩ := members_of_body (hchild hf.label_eq) hkind'
    apply differsInMember_of_body houter hf.label_eq hfield fun _ => hlisted
    left
    rw [hown, hown', hnone, hnone']
    use hmembers
  · -- The body of an enum holds them in its declarations part.
    obtain ⟨hfield, i, hpath, hdiffers⟩ := exists_differs_of_child? hbody
    obtain ⟨k, hcpath, hcdiffers⟩ := exists_differs_of_mem_namedChildren hpart
    use [i] ++ [k]
    use by rw [hcpath, hpath, List.append_assoc]
    intro f x x' hf _ hmembers
    obtain ⟨houter, hchild⟩ := hdiffers (modifyAt f [k])
    have hinner := hcdiffers f
    have hbodies := hf.of_differs hinner
    rw [modifyAt_append]
    refine ⟨?_, hbodies.of_differs houter⟩
    have hkind' : (body.node.modifyAt f [k]).kind = "enum_body" := by rw [hinner.kind_eq, hkind]
    have hpartKind' : (f c.node).kind = "enum_body_declarations" := by
      rw [kind, hf.label_eq]
      exact hpartKind
    have hparts := hinner.namedChildren hf.label_eq (List.mem_filter.mp hpart).2
    obtain ⟨hown, hconstants⟩ := members_of_enumBody (node_child? hbody) hkind
    obtain ⟨hown', hconstants'⟩ := members_of_enumBody (hchild hbodies.label_eq) hkind'
    apply differsInMember_of_body houter hbodies.label_eq hfield (by simp [hkind])
    left
    constructor
    · rw [hown, hown']
      apply (hparts.filter (by simpa using hpartKind) (by simpa using hpartKind')).flatMap hmembers
    · rw [hconstants, hconstants', hparts.filter_eq (by simp [hpartKind]) (by simp [hpartKind'])]
  · -- A constant of an enum holds them in a body of its own, so three nodes change on the way.
    obtain ⟨hfield, i, hpath, hdiffers⟩ := exists_differs_of_child? hbody
    obtain ⟨k, hkpath, hkdiffers⟩ := exists_differs_of_mem_namedChildren hconstant
    obtain ⟨-, l, hcpath, hcdiffers⟩ := exists_differs_of_child? hown
    use [i] ++ ([k] ++ [l])
    use by rw [hcpath, hkpath, hpath, List.append_assoc, List.append_assoc]
    intro f x x' hf _ hmembers
    obtain ⟨hmiddle, hbodyChild⟩ := hcdiffers f
    have hconstants := hf.of_differs hmiddle
    have hinner := hkdiffers (modifyAt f [l])
    have hbodies := hconstants.of_differs hinner
    obtain ⟨houter, hchild⟩ := hdiffers (modifyAt (modifyAt f [l]) [k])
    rw [modifyAt_append, show modifyAt f ([k] ++ [l]) = modifyAt (modifyAt f [l]) [k] from
      funext (modifyAt_append f [k] [l])]
    refine ⟨?_, hbodies.of_differs houter⟩
    have hkind' : (body.node.modifyAt (modifyAt f [l]) [k]).kind = "enum_body" := by
      rw [hinner.kind_eq, hkind]
    have hconstantKind' : (constant.node.modifyAt f [l]).kind = "enum_constant" := by
      rw [hmiddle.kind_eq, hconstantKind]
    have hparts := hinner.namedChildren hconstants.label_eq (List.mem_filter.mp hconstant).2
    obtain ⟨hdeclared, hmembersOf⟩ := members_of_enumBody (node_child? hbody) hkind
    obtain ⟨hdeclared', hmembersOf'⟩ := members_of_enumBody (hchild hbodies.label_eq) hkind'
    apply differsInMember_of_body houter hbodies.label_eq hfield (by simp [hkind])
    right
    constructor
    · rw [hdeclared, hdeclared',
        hparts.filter_eq (by simp [hconstantKind]) (by simp [hconstantKind'])]
    · rw [hmembersOf, hmembersOf']
      have hfiltered := hparts.filter (p := fun n : Node => n.kind = "enum_constant")
        (by simpa using hconstantKind) (by simpa using hconstantKind')
      apply (hfiltered.filterMap (node_child? hown) (hbodyChild hf.label_eq)).flatMap hmembers

/-- Changing a member that declares a type changes the type that it is a member of in this member
only. -/
theorem exists_differsInMember (hm : d.IsMember m) (htype : declaresType m.node) :
  ∃ rest, m.path = d.path ++ rest ∧ ∀ f, Exchangeable s m.node (f m.node) →
    DiffersInMember s m.node (f m.node) d.node (d.node.modifyAt f rest)
      ∧ Exchangeable s d.node (d.node.modifyAt f rest)
  := by
  obtain ⟨c, hc, hm⟩ := hm
  obtain ⟨j, hmpath, hmdiffers⟩ := exists_differs_of_mem_namedChildren hm
  obtain ⟨rest, hcpath, hcdiffers⟩ := exists_differsInMember_of_holdsMembers (s := s) hc
  use rest ++ [j]
  use by rw [hmpath, hcpath, List.append_assoc]
  intro f hf
  have hinner := hmdiffers f
  rw [modifyAt_append]
  apply hcdiffers (modifyAt f [j])
  · apply hf.of_differs hinner
  · apply listedTypes_eq_of_differs hinner hf.label_eq htype
  · apply hinner.namedChildren hf.label_eq (List.mem_filter.mp hm).2

end Place

/-! ### Facts -/

theorem declaresType_of_label_eq (hlabel : x'.label = x.label) (htype : declaresType x) :
  declaresType x'
  := by
  rw [declaresType, kind, hlabel]
  exact htype

/-- A change in a nested type does not change the superclass of the type around it. -/
theorem superclassOf?_eq_of_differsInMember {d d' : Node} (h : DiffersInMember s x x' d d') :
  superclassOf? s d' = superclassOf? s d
  := by rw [superclassOf?, h.child?_eq _ (by decide), superclassOf?]

section

variable {d d' : Node} (h : DiffersInMember s x x' d d') (hlabel : x'.label = x.label)
  (htype : declaresType x)
include h hlabel htype

/-- A change in a nested type does not change the fields of the type around it. -/
theorem fieldsOf_eq_of_differsInMember :
  fieldsOf s d' = fieldsOf s d
  := by
  have hkinds : ∀ kind ∈ typeKinds, kind ≠ "field_declaration" ∧ kind ≠ "constant_declaration" := by
    decide
  obtain ⟨hfield, hconstant⟩ := hkinds x.kind (List.contains_iff_mem.mp htype)
  have hnone {y : Node} (hy : y.label = x.label) (usual : Visibility) :
      memberFields s usual y = [] := by
    have hkind : y.kind = x.kind := by rw [kind, hy, kind]
    rw [memberFields, hkind, if_neg (by simpa using And.intro hfield hconstant)]
  have hrecord : recordFields s d' = recordFields s d := by
    rw [recordFields, h.child?_eq _ (by decide), recordFields]
  rw [fieldsOf, fieldsOf, hrecord, usualVisibility, usualVisibility, kind, h.label_eq, ← kind]
  congr 1
  obtain ⟨hmembers, -⟩ | ⟨hmembers, -⟩ := h.members
  · apply hmembers.flatMap_eq
    rw [hnone hlabel, hnone rfl]
  · rw [hmembers]

/-- A change in a nested type does not change the scope the type around it opens. -/
theorem scopeOf_eq_of_differsInMember (name : String) :
  scopeOf s name d' = scopeOf s name d
  := by
  have hkinds : ∀ kind ∈ typeKinds, kind ≠ "method_declaration" := by decide
  have hmethod := hkinds x.kind (List.contains_iff_mem.mp htype)
  have hnone {y : Node} (hy : y.label = x.label) : methodName? s y = none := by
    rw [methodName?, kind, hy, ← kind, if_neg hmethod]
  rw [scopeOf, scopeOf, superclassOf?_eq_of_differsInMember h,
    fieldsOf_eq_of_differsInMember h hlabel htype, h.allMembers.filterMap_eq]
  rw [hnone hlabel, hnone rfl]

/-- A change in a nested type leaves the facts about the type around it as they were. -/
theorem classFactsOf_eq_of_differsInMember (c : FileContext) (hc : c.source = s)
    (scopes : List TypeScope) (name : String) :
  classFactsOf c scopes name d' = classFactsOf c scopes name d
  := by
  subst hc
  have htype' := declaresType_of_label_eq hlabel htype
  have hmethods := h.allMembers.filter_eq (p := declaresMethod)
    (by rw [Place.declaresMethod_eq_false_of_declaresType htype]; apply Bool.false_ne_true)
    (by rw [Place.declaresMethod_eq_false_of_declaresType htype']; apply Bool.false_ne_true)
  rw [classFactsOf, classFactsOf, superclassOf?_eq_of_differsInMember h,
    h.interfacesOf_eq, fieldsOf_eq_of_differsInMember h hlabel htype, hmethods]

/-- The facts about two types that differ in a nested type differ in those about this type. -/
theorem exists_typesOf_eq (c : FileContext) (hc : c.source = s) (outer : List TypeScope)
    (hname : Place.hasName d) :
  ∃ before after scopes, typesOf c outer d = before ++ typesOf c scopes x ++ after
    ∧ typesOf c outer d' = before ++ typesOf c scopes x' ++ after
  := by
  obtain ⟨name, hname⟩ := Option.isSome_iff_exists.mp hname
  have hname' : d'.child? "name" = some name := (h.child?_eq _ (by decide)).trans hname
  have htype' := declaresType_of_label_eq hlabel htype
  have hmembers := h.allMembers.filter htype htype'
  rw [typesOf_of_eq_some c outer hname, typesOf_of_eq_some c outer hname']
  subst hc
  rw [classFactsOf_eq_of_differsInMember h hlabel htype c rfl,
    scopeOf_eq_of_differsInMember h hlabel htype]
  generalize classFactsOf c _ _ d = facts
  generalize scopeOf c.source _ d :: outer = scopes
  obtain ⟨before, after, hbefore, hafter⟩ := hmembers
  use facts :: before.flatMap (typesOf c scopes), after.flatMap (typesOf c scopes), scopes
  rw [hbefore, hafter]
  simp

end

/-! ### Files -/

/-- What a source file says about all its types. -/
def contextOf (s : Source) (path : String) (root : Node) : FileContext :=
  ⟨s, path, packageOf s root, Imports.ofTree s root⟩

theorem extract_eq (s : Source) (path : String) (root : Node) :
  extract s path root
    = ⟨(root.namedChildren.filter declaresType).flatMap (typesOf (contextOf s path root) []),
      root.hasError⟩
  := rfl

/-- A tree with an exchangeable part exchanged has the context it had. -/
theorem contextOf_eq_of_differs {root' : Node} (h : Differs x x' root root')
    (hx : Exchangeable s x x') (hnamed : x.label.isNamed) (htype : declaresType x) :
  contextOf s path root' = contextOf s path root
  := by
  have hkinds : ∀ kind ∈ typeKinds, kind ≠ "package_declaration" := by decide
  have hkind := hkinds x.kind (List.contains_iff_mem.mp htype)
  have hkind' : x'.kind ≠ "package_declaration" := by
    rw [kind, hx.label_eq]
    exact hkind
  have hpackage := (h.namedChildren hx.label_eq hnamed).find?_eq
    (p := fun n : Node => n.kind = "package_declaration") (by simpa using hkind)
    (by simpa using hkind')
  rw [contextOf, contextOf, packageOf, packageOf, hpackage, ofTree_eq_foldl, ofTree_eq_foldl,
    (hx.of_differs h).staticPaths_eq]

theorem hasName_of_isRecorded {d : Place} (h : Place.IsRecorded root d) :
  Place.hasName d.node
  := by
  obtain ⟨-, -, hname⟩ | ⟨-, -, -, hname⟩ := h
  · exact hname
  · exact hname

/-- If a recorded type is changed to an exchangeable one, the facts of the source file change in
those about this type only. -/
theorem exists_extract_modifyAt (s : Source) (path : String) {d : Place}
    (hd : Place.IsRecorded root d) (f : Node → Node) (hf : Exchangeable s d.node (f d.node)) :
  ∃ before after outer,
    extract s path root
        = ⟨before ++ typesOf (contextOf s path root) outer d.node ++ after, root.hasError⟩
      ∧ extract s path (root.modifyAt f d.path)
        = ⟨before ++ typesOf (contextOf s path root) outer (f d.node) ++ after, root.hasError⟩
  := by
  induction hd generalizing f with
  | @top d hmem htype hname =>
    obtain ⟨i, hpath, hdiffers⟩ := Place.exists_differs_of_mem_namedChildren hmem
    have hroot : Differs d.node (f d.node) root (root.modifyAt f [i]) := hdiffers f
    have hnamed := (List.mem_filter.mp hmem).2
    obtain ⟨before, after, hbefore, hafter⟩ := (hroot.namedChildren hf.label_eq hnamed).filter
      (p := declaresType) htype (declaresType_of_label_eq hf.label_eq htype)
    have hpath : d.path = [i] := hpath
    use before.flatMap (typesOf (contextOf s path root) []),
      after.flatMap (typesOf (contextOf s path root) []), []
    rw [hpath, extract_eq, extract_eq, contextOf_eq_of_differs hroot hf hnamed htype,
      (hf.of_differs hroot).hasError_eq, hbefore, hafter]
    simp
  | @nested d m hd hm htype hname ih =>
    obtain ⟨rest, hpath, hdiffers⟩ := Place.exists_differsInMember (s := s) hm htype
    obtain ⟨hmember, hexchangeable⟩ := hdiffers f hf
    obtain ⟨before, after, outer, hbefore, hafter⟩ := ih (modifyAt f rest) hexchangeable
    obtain ⟨before', after', scopes, hd', hm'⟩ := exists_typesOf_eq hmember hf.label_eq htype
      (contextOf s path root) rfl outer (hasName_of_isRecorded hd)
    use before ++ before', after' ++ after, scopes
    rw [hpath, modifyAt_append, hbefore, hafter, hd', hm']
    simp

end Cohesion.Java
