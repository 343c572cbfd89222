import Cohesion.Proofs.EqualScopes
import Cohesion.Proofs.Replacement

/-!
# The order of members

The members of a recorded type can be declared in any order: each member contributes the same fields,
the same method with the same calls, or the same facts about nested types, and these stand in the
order of the members, `extract_of_perm`.  The fields must have different names for this, so that the
scope of the type tells the same for every order, `equivalent_scopeOf_of_perm`.  A type that is
declared in a method body is not recorded; its fields count as local variables from their declaration
on, and there the order matters.
-/

namespace Cohesion.Java

open Node Surroundings

/-- The kinds of bodies whose children are the members of a type. -/
def bodyKinds : List String :=
  ["class_body", "interface_body", "annotation_type_body"]

/-- A node with other children. -/
def Node.withChildren (children : List Node) (n : Node) : Node :=
  .mk n.label children

/-- The facts about the type that `d` declares if it has some members, and about the types nested in
it.  Each member is looked at under the same scopes. -/
def typesWith (c : FileContext) (scopes : List TypeScope) (name : String) (d : Node)
    (members : List Node) : List ClassFacts :=
  { name := name
    package := c.package
    path := c.path
    supertypes := (superclassOf? c.source d).toList ++ interfacesOf c.source d
    fields := recordFields c.source d
      ++ members.flatMap (memberFields c.source (usualVisibility d))
    methods := (members.filter declaresMethod).map (methodFacts ⟨c.source, c.imports, scopes⟩) }
  :: (members.filter declaresType).flatMap (typesOf c scopes)

variable {s : Source} {path : String} {root d d' x x' : Node} {order : List Node}

/-! ### Scopes -/

/-- The type `d'` is declared as `d` with its members in another order. -/
structure SameMembers (s : Source) (d d' : Node) : Prop where
  label_eq : d'.label = d.label
  child?_eq : ∀ field, field ≠ "body" → d'.child? field = d.child? field
  interfacesOf_eq : interfacesOf s d' = interfacesOf s d
  members_perm : (membersOf d').Perm (membersOf d)
  constantMembers_eq : constantMembersOf d' = constantMembersOf d

theorem SameMembers.refl (s : Source) (d : Node) :
  SameMembers s d d
  := ⟨rfl, fun _ _ => rfl, rfl, .refl _, rfl⟩

/-- Changing the order in the body of a type. -/
theorem SameMembers.of_differs {body : Node} (h : Differs body (body.withChildren order) d d')
    (hbody : d.child? "body" = some body) (hbody' : d'.child? "body" = body.withChildren order)
    (hfield : body.label.field = "body") (hkind : body.kind ∈ bodyKinds)
    (horder : order.Perm body.children) :
  SameMembers s d d'
  := by
  have hkinds : ∀ kind ∈ bodyKinds, kind ≠ "enum_body" ∧ kind ≠ "super_interfaces"
    ∧ kind ≠ "extends_interfaces" := by decide
  obtain ⟨henum, hsuper, hextends⟩ := hkinds body.kind hkind
  obtain ⟨hmembers, hconstants⟩ := members_of_body hbody henum
  obtain ⟨hmembers', hconstants'⟩ := members_of_body hbody' henum
  constructor
  · exact h.label_eq
  · intro field hne
    apply h.child?_eq rfl
    rw [hfield]
    apply hne.symm
  · apply interfacesOf_eq_of_differs h rfl
    rintro (hlisted | hlisted)
    · apply absurd hlisted hsuper
    · apply absurd hlisted hextends
  · rw [hmembers, hmembers']
    apply horder.filter
  · rw [hconstants, hconstants']

/-- Declarations with the same members have the same record components. -/
theorem SameMembers.recordFields_eq (h : SameMembers s d d') :
  recordFields s d' = recordFields s d
  := by rw [recordFields, h.child?_eq _ (by decide), recordFields]

/-- Declarations with the same members have the same superclass. -/
theorem SameMembers.superclassOf?_eq (h : SameMembers s d d') :
  superclassOf? s d' = superclassOf? s d
  := by rw [superclassOf?, h.child?_eq _ (by decide), superclassOf?]

theorem SameMembers.usualVisibility_eq (h : SameMembers s d d') :
  usualVisibility d' = usualVisibility d
  := by rw [usualVisibility, kind, h.label_eq, ← kind, usualVisibility]

/-- Declarations with the same members have the same fields, up to their order. -/
theorem SameMembers.fieldsOf_perm (h : SameMembers s d d') :
  (fieldsOf s d').Perm (fieldsOf s d)
  := by
  rw [fieldsOf, fieldsOf, h.recordFields_eq, h.usualVisibility_eq]
  apply List.Perm.append_left
  apply h.members_perm.flatMap_right

/-- The scope of a type tells the same for every order of its members. -/
theorem SameMembers.equivalent_scopeOf (h : SameMembers s d d')
    (hnames : ((fieldsOf s d).map (·.name)).Nodup) (name : String) :
  (scopeOf s name d').Equivalent (scopeOf s name d)
  := by
  constructor
  · rfl
  · exact h.superclassOf?_eq
  · intro x
    have hperm := (h.fieldsOf_perm.map fun f => (f.name, f.type))
    symm
    apply lookUp?_eq_of_perm
    · exact (List.reverse_perm _).trans (hperm.symm.trans (List.reverse_perm _).symm)
    · change ((((fieldsOf s d).map fun f => (f.name, f.type)).reverse).map Prod.fst).Nodup
      rw [List.map_reverse, List.map_map, List.nodup_reverse]
      exact hnames
  · intro m
    apply List.Perm.mem_iff
    apply List.Perm.filterMap
    rw [h.constantMembers_eq]
    apply h.members_perm.append_right

/-! ### Facts -/

/-- The facts about a type and those nested in it list the contributions of its members. -/
theorem SameMembers.typesOf_eq {c : FileContext} (h : SameMembers c.source d d')
    (hnames : ((fieldsOf c.source d).map (·.name)).Nodup) (hconstants : constantMembersOf d = [])
    (outer : List TypeScope) {name : Node} (hname : d.child? "name" = some name) :
  typesOf c outer d'
    = typesWith c (scopeOf c.source (name.text c.source) d :: outer) (name.text c.source) d
      (membersOf d')
  := by
  have hname' : d'.child? "name" = some name := (h.child?_eq _ (by decide)).trans hname
  have hscopes : EquivalentScopes (scopeOf c.source (name.text c.source) d' :: outer)
      (scopeOf c.source (name.text c.source) d :: outer) := by
    apply List.Forall₂.cons (h.equivalent_scopeOf hnames _)
    apply List.forall₂_same.mpr
    intro t _
    apply TypeScope.Equivalent.refl
  rw [typesOf_of_eq_some c outer hname', classFactsOf_eq_of_equivalent hscopes, typesWith,
    classFactsOf, h.superclassOf?_eq, h.interfacesOf_eq, h.constantMembers_eq, hconstants,
    List.append_nil, fieldsOf, h.recordFields_eq, h.usualVisibility_eq]
  congr 1
  apply List.flatMap_congr
  intro m _
  apply typesOf_eq_of_equivalent c hscopes

/-- A tree without imports has no static import paths. -/
theorem staticPaths_eq_nil {n : Node} (h : ∀ m ∈ n.preorder, m.kind ≠ "import_declaration") :
  staticPaths s n = []
  := by
  rw [staticPaths, List.filter_eq_nil_iff.mpr, List.filterMap_nil]
  intro m hm
  simpa using h m hm

/-- A body without imports can be exchanged for one with its children in another order. -/
theorem exchangeable_withChildren {body : Node} (horder : order.Perm body.children)
    (himports : ∀ n ∈ body.preorder, n.kind ≠ "import_declaration") :
  Exchangeable s body (body.withChildren order)
  := by
  constructor
  · rfl
  · rw [staticPaths_eq_nil himports, staticPaths_eq_nil]
    intro n hn
    rw [preorder_eq_cons] at hn
    obtain rfl | hn := List.mem_cons.mp hn
    · exact himports body (self_mem_preorder body)
    · obtain ⟨c, hc, hn⟩ := List.mem_flatMap.mp hn
      apply himports
      apply preorder_subset_of_mem_children (horder.mem_iff.mp hc) hn
  · rw [hasError_eq, hasError_eq body]
    congr 1
    apply horder.any_eq

/-- The members of a recorded type can be declared in any order if its fields have different names:
each member contributes the same to the facts of the source file. -/
theorem extract_of_perm (s : Source) (path : String) {d body : Place}
    (hd : Place.IsRecorded root d) (hbody : d.child? "body" = some body)
    (hkind : body.node.kind ∈ bodyKinds)
    (hnames : ((fieldsOf s d.node).map (·.name)).Nodup)
    (himports : ∀ n ∈ body.node.preorder, n.kind ≠ "import_declaration")
    (horder : order.Perm body.node.children) :
  ∃ before after scopes name,
    extract s path root
        = ⟨before ++ typesWith (contextOf s path root) scopes name d.node body.node.namedChildren
          ++ after, root.hasError⟩
      ∧ extract s path (root.modifyAt (withChildren order) body.path)
        = ⟨before ++ typesWith (contextOf s path root) scopes name d.node
          (order.filter (·.label.isNamed)) ++ after, root.hasError⟩
  := by
  have hkinds : ∀ kind ∈ bodyKinds, kind ≠ "enum_body" := by decide
  obtain ⟨hfield, i, hpath, hdiffers⟩ := Place.exists_differs_of_child? hbody
  obtain ⟨houter, hbody'⟩ := hdiffers (withChildren order)
  have hbody := Place.node_child? hbody
  have hbody' := hbody' rfl
  have hsame := SameMembers.of_differs (s := s) houter hbody hbody' hfield hkind horder
  obtain ⟨hmembers, hconstants⟩ := members_of_body hbody (hkinds _ hkind)
  obtain ⟨hmembers', -⟩ := members_of_body hbody' (hkinds _ hkind)
  obtain ⟨name, hname⟩ := Option.isSome_iff_exists.mp (hasName_of_isRecorded hd)
  -- Outside of the type the new order changes nothing, neither scopes nor imports.
  obtain ⟨before, after, outer, hextract, hextract'⟩ := exists_extract_modifyAt s path hd
    (modifyAt (withChildren order) [i])
    ((exchangeable_withChildren horder himports).of_differs houter)
  let c := contextOf s path root
  have htypes := (SameMembers.refl s d.node).typesOf_eq (c := c) hnames hconstants outer hname
  have htypes' := hsame.typesOf_eq (c := c) hnames hconstants outer hname
  use before, after, scopeOf s (name.text s) d.node :: outer, name.text s
  rw [hpath, modifyAt_append, hextract, hextract', htypes, htypes', hmembers, hmembers']
  use rfl
  rfl

/-- The method `void m(){f.a();}` at an offset of the source. -/
def callingMethod (start : Nat) : Node :=
  shadowedNode "method_declaration" "" start (start + 16)
    [shadowedNode "identifier" "name" (start + 5) (start + 6) [],
      shadowedNode "formal_parameters" "parameters" (start + 6) (start + 8) [],
      shadowedNode "block" "body" (start + 8) (start + 16)
        [shadowedNode "method_invocation" "" (start + 9) (start + 14)
          [shadowedNode "identifier" "object" (start + 9) (start + 10) [],
            shadowedNode "identifier" "name" (start + 11) (start + 12) []]]]

/-- The field `B f;` at an offset of the source. -/
def calledField (start : Nat) : Node :=
  shadowedNode "field_declaration" "" start (start + 4)
    [shadowedNode "type_identifier" "type" start (start + 1) [],
      shadowedNode "variable_declarator" "declarator" (start + 2) (start + 3)
        [shadowedNode "identifier" "name" (start + 2) (start + 3) []]]

/-- The class `class T{...}` with a method and a field, at an offset of the source. -/
def callingClass (start : Nat) : Node :=
  shadowedNode "class_declaration" "" start (start + 29)
    [shadowedNode "identifier" "name" (start + 6) (start + 7) [],
      shadowedNode "class_body" "body" (start + 7) (start + 29)
        [callingMethod (start + 8), calledField (start + 24)]]

/-- In a class a method may call another one through a field before or after the field is declared. -/
theorem extract_of_perm_of_class :
  let s : Source := .ofBytes "class T{void m(){f.a();}B f;}".toUTF8
  let root := shadowedNode "program" "" 0 29 [callingClass 0]
  let body : Place :=
    ⟨[0, 1], shadowedNode "class_body" "body" 7 29 [callingMethod 8, calledField 24]⟩
  let order := [calledField 24, callingMethod 8]
  Place.IsRecorded root ⟨[0], callingClass 0⟩ ∧ order.Perm body.node.children
    ∧ ∃ before after scopes name,
      extract s "T.java" (root.modifyAt (withChildren order) body.path)
        = ⟨before ++ typesWith (contextOf s "T.java" root) scopes name (callingClass 0) order
          ++ after, root.hasError⟩
      ∧ (extract s "T.java" (root.modifyAt (withChildren order) body.path)).classes.flatMap
        ClassFacts.calls = [⟨"a", "B", 0⟩]
      ∧ (extract s "T.java" root).classes.flatMap ClassFacts.calls = [⟨"a", "B", 0⟩]
  := by
  intro s root body order
  have hrecorded : Place.IsRecorded root ⟨[0], callingClass 0⟩ :=
    .top List.mem_cons_self (by decide +kernel) (by decide +kernel)
  have horder : order.Perm body.node.children := List.Perm.swap _ _ _
  obtain ⟨before, after, scopes, name, -, hextract⟩ := extract_of_perm s "T.java" hrecorded
    (show Place.child? ⟨[0], callingClass 0⟩ "body" = some body from rfl) (by decide +kernel)
    (by decide +kernel) (by decide +kernel) horder
  use hrecorded, horder, before, after, scopes, name, hextract
  decide +kernel

/-- A class in the method of another one is not recorded, and there a call through a field finds the
type of the field only if this is declared before. -/
theorem not_forall_extract_of_perm :
  ¬ ∀ (s : Source) (path : String) (root : Node) (d body : Place) (order : List Node),
    (Place.ofRoot root).Reaches d → declaresType d.node → d.child? "body" = some body →
    body.node.kind ∈ bodyKinds → ((fieldsOf s d.node).map (·.name)).Nodup →
    (∀ n ∈ body.node.preorder, n.kind ≠ "import_declaration") →
    order.Perm body.node.children →
      ((extract s path (root.modifyAt (withChildren order) body.path)).classes.flatMap
        ClassFacts.calls).Perm ((extract s path root).classes.flatMap ClassFacts.calls)
  := by
  intro hall
  let s : Source := .ofBytes "class A{void n(){class T{void m(){f.a();}B f;}}}".toUTF8
  let block := shadowedNode "block" "body" 16 47 [callingClass 17]
  let method := shadowedNode "method_declaration" "" 8 47
    [shadowedNode "identifier" "name" 13 14 [], block]
  let outer := shadowedNode "class_body" "body" 7 48 [method]
  let declaration := shadowedNode "class_declaration" "" 0 48
    [shadowedNode "identifier" "name" 6 7 [], outer]
  let root := shadowedNode "program" "" 0 48 [declaration]
  let body : Place := ⟨[0, 1, 0, 1, 0, 1],
    shadowedNode "class_body" "body" 24 46 [callingMethod 25, calledField 41]⟩
  have hreaches : (Place.ofRoot root).Reaches ⟨[0, 1, 0, 1, 0], callingClass 17⟩ := by
    apply Relation.ReflTransGen.head (b := ⟨[0], declaration⟩) List.mem_cons_self
    apply Relation.ReflTransGen.head (b := ⟨[0, 1], outer⟩)
      (List.mem_cons_of_mem _ List.mem_cons_self)
    apply Relation.ReflTransGen.head (b := ⟨[0, 1, 0], method⟩) List.mem_cons_self
    apply Relation.ReflTransGen.head (b := ⟨[0, 1, 0, 1], block⟩)
      (List.mem_cons_of_mem _ List.mem_cons_self)
    apply Relation.ReflTransGen.single List.mem_cons_self
  have hcalls := hall s "A.java" root ⟨[0, 1, 0, 1, 0], callingClass 17⟩ body
    [calledField 41, callingMethod 25] hreaches (by decide +kernel) rfl (by decide +kernel)
    (by decide +kernel) (by decide +kernel) (List.Perm.swap _ _ _)
  revert hcalls
  decide +kernel

end Cohesion.Java
