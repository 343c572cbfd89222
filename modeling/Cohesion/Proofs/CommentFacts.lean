import Cohesion.Proofs.CommentCalls
import Cohesion.Proofs.Extraction

/-!
# Facts without comments

The facts of a source file and of the same file without comments agree in everything but the types
of fields, the supertypes and the receivers of calls.  These agree, too, if no comment stands where
a type is read: `extract_withoutComments`.
-/

namespace Cohesion

/-- A field without its type. -/
def FieldFacts.withoutType (field : FieldFacts) : FieldFacts :=
  { field with type := "" }

/-- The facts about a type, apart from the names of other types in them. -/
def ClassFacts.withoutTypes (c : ClassFacts) : ClassFacts :=
  { c with
    supertypes := []
    fields := c.fields.map FieldFacts.withoutType
    methods := c.methods.map MethodFacts.withoutReceivers }

namespace Java

open Node Surroundings

variable {e e' : Surroundings} {s : Source} {hidden : String → Prop} {n : Node}

/-! ### Members -/

/-- The bodies that hold the members stay the same but for the comments in them. -/
theorem memberContainers_withoutComments (h : n.Everywhere CommentIsLeaf) :
  memberContainers n.withoutComments = (memberContainers n).map withoutComments
  := by
  rw [memberContainers, memberContainers, child?_withoutComments h (by decide)]
  cases n.child? "body" with
  | none => rfl
  | some body =>
    simp only [Option.map_some, kind_withoutComments]
    split
    · apply filter_withoutComments (p := fun kind => kind = "enum_body_declarations") (by decide)
        (by decide)
    · rfl

/-- The bodies of enum constants stay the same but for the comments in them. -/
theorem constantBodies_withoutComments (h : n.Everywhere CommentIsLeaf) :
  constantBodies n.withoutComments = (constantBodies n).map withoutComments
  := by
  rw [constantBodies, constantBodies, child?_withoutComments h (by decide)]
  cases hbody : n.child? "body" with
  | none => rfl
  | some body =>
    simp only [Option.map_some, kind_withoutComments]
    split
    · rw [filter_withoutComments (p := fun kind => kind = "enum_constant") (by decide) (by decide),
        List.filterMap_map, List.map_filterMap]
      apply List.filterMap_congr
      intro constant hconstant
      apply child?_withoutComments _ (by decide)
      apply (h.of_child? hbody).of_mem_namedChildren (List.mem_of_mem_filter hconstant)
    · rfl

/-- The members are the same ones without comments. -/
theorem members_withoutComments (h : n.Everywhere CommentIsLeaf) :
  membersOf n.withoutComments = ((membersOf n).filter (!·.isComment)).map withoutComments
    ∧ constantMembersOf n.withoutComments
      = ((constantMembersOf n).filter (!·.isComment)).map withoutComments
  := by
  have hnamed (containers : List Node) :
      (containers.map withoutComments).flatMap namedChildren
        = ((containers.flatMap namedChildren).filter (!·.isComment)).map withoutComments := by
    rw [List.flatMap_map, List.filter_flatMap, List.map_flatMap]
    simp only [namedChildren_withoutComments]
  rw [membersOf, membersOf, constantMembersOf, constantMembersOf,
    memberContainers_withoutComments h, constantBodies_withoutComments h]
  use hnamed _, hnamed _

/-- Without comments, the members are those that are no comments, each without its own. -/
theorem allMembers_withoutComments (h : n.Everywhere CommentIsLeaf) :
  membersOf n.withoutComments ++ constantMembersOf n.withoutComments
    = ((membersOf n ++ constantMembersOf n).filter (!·.isComment)).map withoutComments
  := by
  obtain ⟨hmembers, hconstants⟩ := members_withoutComments h
  rw [hmembers, hconstants, List.filter_append, List.map_append]

/-- The members of some kinds are the same ones without comments. -/
theorem filter_allMembers_withoutComments {p : String → Bool} (hline : ¬ p "line_comment")
    (hblock : ¬ p "block_comment") (h : n.Everywhere CommentIsLeaf) :
  (membersOf n.withoutComments ++ constantMembersOf n.withoutComments).filter (p ·.kind)
    = ((membersOf n ++ constantMembersOf n).filter (p ·.kind)).map withoutComments
  := by
  rw [allMembers_withoutComments h, List.filter_map, List.filter_filter]
  simp only [Function.comp_def, kind_withoutComments]
  congr 1
  apply List.filter_congr
  intro m _
  cases hcomment : m.isComment
  · rw [Bool.not_false, Bool.and_true]
  · have := not_kind_of_isComment hline hblock hcomment
    simpa using this

/-! ### Supertypes and fields -/

section

variable (h : n.Everywhere CommentIsLeaf) (hclear : n.Everywhere (IsClear s hidden))
include h hclear

/-- The types of a list of interfaces do not depend on the comments. -/
theorem listedTypes_withoutComments
    (hkind : n.kind = "super_interfaces" ∨ n.kind = "extends_interfaces" ∨ n.kind = "type_list") :
  listedTypes s n.withoutComments = listedTypes s n
  := by
  induction hsize : n.size using Nat.strongRecOn generalizing n with
  | ind size ih =>
    subst hsize
    rw [listedTypes_eq, listedTypes_eq,
      namedChildren_withoutComments_of_forall (hclear.here.listed hkind), List.flatMap_map]
    apply List.flatMap_congr
    intro c hc
    have hcleaf := h.of_mem_namedChildren hc
    have hcclear := hclear.of_mem_namedChildren hc
    rw [kind_withoutComments]
    split
    · rename_i hlist
      apply ih _ (size_lt_of_mem_namedChildren hc) hcleaf hcclear (.inr (.inr hlist)) rfl
    · rw [simpleType_withoutComments hcleaf hcclear]

/-- The superclass does not depend on comments that do not stand in its place. -/
theorem superclassOf?_withoutComments :
  superclassOf? s n.withoutComments = superclassOf? s n
  := by
  rw [superclassOf?, superclassOf?, child?_withoutComments h (by decide)]
  cases hsuperclass : n.child? "superclass" with
  | none => rfl
  | some superclass =>
    have hcleaf := h.of_child? hsuperclass
    have hcclear := hclear.of_child? hsuperclass
    have hfield : superclass.label.field = "superclass" := by
      simpa using List.find?_some hsuperclass
    rw [Option.map_some, Option.bind_some, Option.bind_some,
      firstNamed?_withoutComments (hcclear.here.first (.inr (.inr hfield))), Option.map_map]
    apply Option.map_congr
    intro c hc
    have hmem := List.mem_of_head? hc
    apply simpleType_withoutComments (hcleaf.of_mem_namedChildren hmem)
      (hcclear.of_mem_namedChildren hmem)

/-- The interfaces of a type do not depend on the comments. -/
theorem interfacesOf_withoutComments :
  interfacesOf s n.withoutComments = interfacesOf s n
  := by
  rw [interfacesOf, interfacesOf, filter_withoutComments
    (p := fun kind => kind = "super_interfaces" || kind = "extends_interfaces") (by decide)
    (by decide), List.flatMap_map]
  apply List.flatMap_congr
  intro c hc
  obtain ⟨hmem, hkind⟩ := List.mem_filter.mp hc
  rw [Bool.or_eq_true, decide_eq_true_iff, decide_eq_true_iff] at hkind
  apply listedTypes_withoutComments (h.of_mem_namedChildren hmem) (hclear.of_mem_namedChildren hmem)
  obtain hkind | hkind := hkind
  · exact .inl hkind
  · exact .inr (.inl hkind)

end

/-- The visibility of a declaration does not depend on the comments. -/
theorem visibilityOf_withoutComments (n : Node) (usual : Visibility) :
  visibilityOf n.withoutComments usual = visibilityOf n usual
  := by
  have hmodifiers : n.withoutComments.children.find? (·.kind = "modifiers")
      = (n.children.find? (·.kind = "modifiers")).map withoutComments := by
    have hfilter := filter_children_withoutComments (n := n)
      (q := fun label => label.kind = "modifiers") fun c _ hc =>
        not_kind_of_isComment (p := fun kind => kind = "modifiers") (by decide) (by decide) hc
    rw [← List.head?_filter, ← List.head?_filter, ← List.head?_map]
    exact congrArg List.head? hfilter
  rw [visibilityOf, visibilityOf, hmodifiers]
  cases n.children.find? (·.kind = "modifiers") with
  | none => rfl
  | some modifiers =>
    rw [Option.map_some]
    dsimp only
    rw [children_withoutComments, withoutCommentsAmong_eq, List.findSome?_map]
    simp only [Function.comp_def, kind_withoutComments]
    congr 1
    -- A comment among the modifiers is no keyword of visibility.
    induction modifiers.children with
    | nil => rfl
    | cons keyword keywords ih =>
      by_cases hcomment : keyword.isComment
      · have hkeyword : visibilityOfKeyword? keyword.kind = none := by
          have hkind := hcomment
          rw [isComment, Bool.or_eq_true, decide_eq_true_iff, decide_eq_true_iff] at hkind
          obtain hkind | hkind := hkind
          · simp [hkind, visibilityOfKeyword?]
          · simp [hkind, visibilityOfKeyword?]
        rw [List.filter_cons_of_neg (by simpa using hcomment), ih, List.findSome?_cons, hkeyword]
      · rw [List.filter_cons_of_pos (by simpa using hcomment), List.findSome?_cons, ih,
          List.findSome?_cons]

section

variable {α : Type} {f : FieldFacts → α} (h : n.Everywhere CommentIsLeaf)
include h

/-- A record without comments has the same components if they are looked at through `f`. -/
theorem map_recordFields_withoutComments
    (hf : ∀ type : Node, type.preorder ⊆ n.preorder → ∀ name visibility,
      f ⟨name, simpleType s type.withoutComments, visibility⟩
        = f ⟨name, simpleType s type, visibility⟩) :
  (recordFields s n.withoutComments).map f = (recordFields s n).map f
  := by
  rw [recordFields, recordFields, child?_withoutComments h (by decide)]
  cases hparameters : n.child? "parameters" with
  | none => rfl
  | some parameters =>
    have hp := h.of_child? hparameters
    have hsub := preorder_subset_of_child? hparameters
    rw [Option.map_some]
    dsimp only
    rw [namedChildren_withoutComments, List.filterMap_map, List.filterMap_filter,
      List.map_filterMap, List.map_filterMap]
    apply List.filterMap_congr
    intro parameter hparameter
    have hleaf := hp.of_mem_namedChildren hparameter
    have hsub := List.Subset.trans (preorder_subset_of_mem_namedChildren hparameter) hsub
    by_cases hcomment : parameter.isComment
    · have hchildren := (hleaf.here hcomment).1
      rw [if_neg (by simpa using hcomment), child?, hchildren]
      rfl
    · rw [if_pos (by simpa using hcomment), Function.comp_apply,
        child?_withoutComments hleaf (by decide), child?_withoutComments hleaf (by decide)]
      cases htype : parameter.child? "type" with
      | none => rfl
      | some type =>
        have hsub := List.Subset.trans (preorder_subset_of_child? htype) hsub
        cases parameter.child? "name" with
        | none => rfl
        | some name => simp only [Option.map_some, text_withoutComments, hf type hsub]

/-- A type without comments has the same fields if they are looked at through `f`. -/
theorem map_fieldsOf_withoutComments
    (hf : ∀ type : Node, type.preorder ⊆ n.preorder → ∀ name visibility,
      f ⟨name, simpleType s type.withoutComments, visibility⟩
        = f ⟨name, simpleType s type, visibility⟩)
    (hmember : ∀ m : Node, m.preorder ⊆ n.preorder → ∀ usual,
      (memberFields s usual m.withoutComments).map f = (memberFields s usual m).map f) :
  (fieldsOf s n.withoutComments).map f = (fieldsOf s n).map f
  := by
  have husual : usualVisibility n.withoutComments = usualVisibility n := by
    rw [usualVisibility, kind_withoutComments, usualVisibility]
  rw [fieldsOf, fieldsOf, List.map_append, List.map_append, map_recordFields_withoutComments h hf,
    husual, (members_withoutComments h).1, List.flatMap_map, List.map_flatMap, List.map_flatMap,
    ← Place.flatMap_ite]
  congr 1
  apply List.flatMap_congr
  intro m hm
  have hsub := preorder_subset_of_mem_members (List.mem_append_left _ hm)
  by_cases hcomment : m.isComment
  · have hkind := not_kind_of_isComment
      (p := fun kind => kind = "field_declaration" || kind = "constant_declaration") (by decide)
      (by decide) hcomment
    rw [if_neg (by simpa using hcomment), memberFields, if_neg hkind, List.map_nil]
  · rw [if_pos (by simpa using hcomment), hmember m hsub]

/-- A type has the same fields without comments apart from their types. -/
theorem withoutType_fieldsOf_withoutComments :
  (fieldsOf s n.withoutComments).map FieldFacts.withoutType
    = (fieldsOf s n).map FieldFacts.withoutType
  := by
  apply map_fieldsOf_withoutComments h
  · intro _ _ _ _
    rfl
  · intro m hsub usual
    have hnames := map_fst_declaredVariables_withoutComments (s := s) (h.mono hsub)
    rw [memberFields, memberFields, kind_withoutComments, visibilityOf_withoutComments]
    split
    · have hmap (vs : List (String × String)) :
          (vs.map fun v => FieldFacts.mk v.1 v.2 (visibilityOf m usual)).map FieldFacts.withoutType
            = (vs.map Prod.fst).map fun name => ⟨name, "", visibilityOf m usual⟩ := by
        rw [List.map_map, List.map_map]
        rfl
      exact (hmap _).trans ((congrArg _ hnames).trans (hmap _).symm)
    · rfl

/-- A type has the same fields without comments if no comment is read as a type. -/
theorem fieldsOf_withoutComments (hclear : n.Everywhere (IsClear s hidden)) :
  fieldsOf s n.withoutComments = fieldsOf s n
  := by
  rw [← List.map_id (fieldsOf s n.withoutComments), ← List.map_id (fieldsOf s n)]
  apply map_fieldsOf_withoutComments h
  · intro type hsub _ _
    rw [simpleType_withoutComments (h.mono hsub) (hclear.mono hsub)]
  · intro m hsub usual
    rw [memberFields, memberFields, kind_withoutComments, visibilityOf_withoutComments,
      declaredVariables_withoutComments (h.mono hsub) (hclear.mono hsub)]

end

/-! ### Types -/

/-- The scope a type opens does not depend on the comments. -/
theorem scopeOf_withoutComments (h : n.Everywhere CommentIsLeaf)
    (hclear : n.Everywhere (IsClear s hidden)) (name : String) :
  scopeOf s name n.withoutComments = scopeOf s name n
  := by
  have hmethods : (membersOf n.withoutComments ++ constantMembersOf n.withoutComments).filterMap
      (methodName? s)
        = (membersOf n ++ constantMembersOf n).filterMap (methodName? s) := by
    rw [allMembers_withoutComments h, List.filterMap_map, List.filterMap_filter]
    apply List.filterMap_congr
    intro m hm
    have hleaf := h.mono (preorder_subset_of_mem_members hm)
    by_cases hcomment : m.isComment
    · have hkind := not_kind_of_isComment (p := fun kind => kind = "method_declaration") (by decide)
        (by decide) hcomment
      rw [if_neg (by simpa using hcomment), methodName?, if_neg (by simpa using hkind)]
    · rw [if_pos (by simpa using hcomment), Function.comp_apply, methodName?, kind_withoutComments,
        child?_withoutComments hleaf (by decide), Option.map_map, methodName?]
      simp only [Function.comp_def, text_withoutComments]
  rw [scopeOf, scopeOf, superclassOf?_withoutComments h hclear, fieldsOf_withoutComments h hclear,
    hmethods]

variable {c : FileContext}

/-- A type without comments has the same methods if they are looked at through `f`. -/
theorem map_methods_withoutComments {α : Type} (f : MethodFacts → α)
    (h : n.Everywhere CommentIsLeaf)
    (hf : ∀ m : Node, m.preorder ⊆ n.preorder →
      f (methodFacts e m.withoutComments) = f (methodFacts e' m)) :
  (((membersOf n.withoutComments ++ constantMembersOf n.withoutComments).filter
      declaresMethod).map (methodFacts e)).map f
    = (((membersOf n ++ constantMembersOf n).filter declaresMethod).map (methodFacts e')).map f
  := by
  have hmembers := filter_allMembers_withoutComments (p := methodKinds.contains) (by decide)
    (by decide) h
  change (List.map _ (((_ : List Node).filter (methodKinds.contains ·.kind)).map _)) = _
  rw [hmembers, List.map_map, List.map_map, List.map_map]
  apply List.map_congr_left
  intro m hm
  apply hf m (preorder_subset_of_mem_members (List.mem_of_mem_filter hm))

/-- The facts about a class do not depend on comments that stand in no place that is read. -/
theorem classFactsOf_withoutComments (scopes : List TypeScope) (name : String)
    (h : n.Everywhere CommentIsLeaf) (hclear : n.Everywhere (IsClear c.source hidden)) :
  classFactsOf c scopes name n.withoutComments = classFactsOf c scopes name n
  := by
  have hmethods := map_methods_withoutComments id h fun m hsub =>
    methodFacts_withoutComments (e := ⟨c.source, c.imports, scopes⟩) (h.mono hsub)
      (hclear.mono hsub)
  rw [List.map_id, List.map_id] at hmethods
  rw [classFactsOf, classFactsOf, superclassOf?_withoutComments h hclear,
    interfacesOf_withoutComments h hclear, fieldsOf_withoutComments h hclear, hmethods]

/-- Up to the types read in them, the facts about a class never depend on the comments. -/
theorem withoutTypes_classFactsOf_withoutComments (scopes scopes' : List TypeScope)
    (name : String) (h : n.Everywhere CommentIsLeaf) :
  (classFactsOf c scopes name n.withoutComments).withoutTypes
    = (classFactsOf c scopes' name n).withoutTypes
  := by
  let inner : Surroundings := ⟨c.source, c.imports, scopes'⟩
  have hmethods := map_methods_withoutComments MethodFacts.withoutReceivers h fun m hsub =>
    withoutReceivers_methodFacts_withoutComments (show c.source = inner.source from rfl)
      (e := ⟨c.source, c.imports, scopes⟩) (h.mono hsub)
  rw [classFactsOf, classFactsOf, ClassFacts.withoutTypes, ClassFacts.withoutTypes, hmethods,
    withoutType_fieldsOf_withoutComments h]

/-- The facts about a type and those nested in it are the same without comments if no comment is
read as a type. -/
theorem typesOf_withoutComments (outer : List TypeScope) (h : n.Everywhere CommentIsLeaf)
    (hclear : n.Everywhere (IsClear c.source hidden)) :
  typesOf c outer n.withoutComments = typesOf c outer n
  := by
  induction hsize : n.size using Nat.strongRecOn generalizing n outer with
  | ind size ih =>
    subst hsize
    have hchild := child?_name_withoutComments h
    cases hname : n.child? "name" with
    | none =>
      rw [hname] at hchild
      rw [typesOf_of_eq_none c outer hname, typesOf_of_eq_none c outer hchild]
    | some name =>
      rw [hname] at hchild
      have hmembers := filter_allMembers_withoutComments (p := typeKinds.contains) (by decide)
        (by decide) h
      rw [typesOf_of_eq_some c outer hname, typesOf_of_eq_some c outer hchild,
        text_withoutComments, scopeOf_withoutComments h hclear,
        classFactsOf_withoutComments _ _ h hclear]
      congr 1
      change ((_ : List Node).filter (typeKinds.contains ·.kind)).flatMap _ = _
      rw [hmembers, List.flatMap_map]
      apply List.flatMap_congr
      intro m hm
      have hmem := List.mem_of_mem_filter hm
      have hsub := preorder_subset_of_mem_members hmem
      apply ih _ (size_lt_of_mem_members hmem) _ (h.mono hsub) (hclear.mono hsub) rfl

/-- The facts about a type and those nested in it are the same without comments apart from the names
of other types in them. -/
theorem map_typesOf_withoutComments (outer outer' : List TypeScope)
    (h : n.Everywhere CommentIsLeaf) :
  (typesOf c outer n.withoutComments).map ClassFacts.withoutTypes
    = (typesOf c outer' n).map ClassFacts.withoutTypes
  := by
  induction hsize : n.size using Nat.strongRecOn generalizing n outer outer' with
  | ind size ih =>
    subst hsize
    have hchild := child?_name_withoutComments h
    cases hname : n.child? "name" with
    | none =>
      rw [hname] at hchild
      rw [typesOf_of_eq_none c outer' hname, typesOf_of_eq_none c outer hchild]
    | some name =>
      rw [hname] at hchild
      have hmembers := filter_allMembers_withoutComments (p := typeKinds.contains) (by decide)
        (by decide) h
      rw [typesOf_of_eq_some c outer' hname, typesOf_of_eq_some c outer hchild,
        text_withoutComments, List.map_cons, List.map_cons,
        withoutTypes_classFactsOf_withoutComments _
          (scopeOf c.source (name.text c.source) n :: outer') _ h]
      congr 1
      change (((_ : List Node).filter (typeKinds.contains ·.kind)).flatMap _).map _ = _
      rw [hmembers, List.flatMap_map, List.map_flatMap, List.map_flatMap]
      apply List.flatMap_congr
      intro m hm
      have hmem := List.mem_of_mem_filter hm
      have hsub := preorder_subset_of_mem_members hmem
      apply ih _ (size_lt_of_mem_members hmem) _ _ (h.mono hsub) rfl

/-! ### Files -/

/-- The package of a file does not depend on the comments. -/
theorem packageOf_withoutComments (s : Source) (root : Node) :
  packageOf s root.withoutComments = packageOf s root
  := by
  rw [packageOf, packageOf, find?_withoutComments (p := fun kind => kind = "package_declaration")
    (by decide) (by decide)]
  cases root.namedChildren.find? (·.kind = "package_declaration") with
  | none => rfl
  | some package =>
    simp only [Option.map_some]
    rw [find?_withoutComments (p := fun kind => kind = "scoped_identifier" || kind = "identifier")
      (by decide) (by decide)]
    cases package.namedChildren.find? _ with
    | none => rfl
    | some name => simp only [Option.map_some, text_withoutComments]

/-- Lists whose matching elements correspond have a matching element together or not at all. -/
theorem any_eq_of_filter_eq_map {α : Type} {xs ys : List α} {p : α → Bool} {f : α → α}
    (h : ys.filter p = (xs.filter p).map f) :
  ys.any p = xs.any p
  := by rw [← List.isSome_find?, ← List.head?_filter, h, List.head?_map, Option.isSome_map,
    List.head?_filter, List.isSome_find?]

/-- The static path of an import does not depend on the comments. -/
theorem staticPath?_withoutComments (s : Source) (n : Node) :
  Imports.staticPath? s n.withoutComments = Imports.staticPath? s n
  := by
  have hfilter {p : String → Bool} (hline : ¬ p "line_comment") (hblock : ¬ p "block_comment") :
      n.withoutComments.children.filter (p ·.kind)
        = (n.children.filter (p ·.kind)).map withoutComments :=
    filter_children_withoutComments (q := fun label => p label.kind) fun c _ hc =>
      not_kind_of_isComment hline hblock hc
  have hstatic := any_eq_of_filter_eq_map
    (hfilter (p := fun kind => kind = "static") (by decide) (by decide))
  have hasterisk := any_eq_of_filter_eq_map
    (hfilter (p := fun kind => kind = "asterisk") (by decide) (by decide))
  have hpath := hfilter (p := fun kind => kind = "scoped_identifier" || kind = "identifier")
    (by decide) (by decide)
  simp only [Imports.staticPath?, hstatic, hasterisk, hpath, List.getLast?_map]
  cases (n.children.filter _).getLast? with
  | none => rfl
  | some path =>
    rw [Option.map_some]
    cases n.children.any (·.kind = "static") with
    | false => rfl
    | true =>
      dsimp only
      rw [text_withoutComments]

variable {root : Node}

/-- The static imports of a file do not depend on the comments. -/
theorem ofTree_withoutComments (s : Source) (h : root.Everywhere CommentIsLeaf) :
  Imports.ofTree s root.withoutComments = Imports.ofTree s root
  := by
  have hdeclarations : root.withoutComments.preorder.filter (·.kind = "import_declaration")
      = (root.preorder.filter (·.kind = "import_declaration")).map withoutComments :=
    filter_preorder_withoutComments (q := fun label => label.kind = "import_declaration")
      fun m hm hcomment => ⟨(h m hm hcomment).1, not_kind_of_isComment
        (p := fun kind => kind = "import_declaration") (by decide) (by decide) hcomment⟩
  rw [Imports.ofTree, Imports.ofTree, hdeclarations, List.foldl_map]
  congr 1
  funext imports declaration
  rw [Imports.addDeclaration, staticPath?_withoutComments, Imports.addDeclaration]

/-- Whether a tree has an error does not depend on the comments. -/
theorem hasError_withoutComments (h : root.Everywhere CommentIsLeaf) :
  root.withoutComments.hasError = root.hasError
  := by
  apply any_eq_of_filter_eq_map
  apply filter_preorder_withoutComments
    (q := fun label => label.kind = "ERROR" || label.isMissing)
  intro m hm hcomment
  obtain ⟨hleaf, -, hmissing⟩ := h m hm hcomment
  have hkind := not_kind_of_isComment (p := fun kind => kind = "ERROR") (by decide) (by decide)
    hcomment
  use hleaf
  change ¬ (decide (m.kind = "ERROR") || m.label.isMissing) = true
  simpa [hmissing] using hkind

/-- No comment below the root of a source file is read as a type, and no identifier reads like a
comment among the parameters of a lambda expression. -/
def HidesNoType (s : Source) (root : Node) : Prop :=
  ∃ hidden : String → Prop, root.Everywhere (IsClear s hidden)

/-- Without comments a source file has the same facts apart from the types of fields, the supertypes
and the receivers of calls, and if no comment is read as a type it has the same facts altogether. -/
theorem extract_withoutComments (s : Source) (path : String)
    (h : root.Everywhere CommentIsLeaf) :
  (extract s path root.withoutComments).hasErrors = (extract s path root).hasErrors
    ∧ (extract s path root.withoutComments).classes.map ClassFacts.withoutTypes
      = (extract s path root).classes.map ClassFacts.withoutTypes
    ∧ (HidesNoType s root → extract s path root.withoutComments = extract s path root)
  := by
  have htypes : root.withoutComments.namedChildren.filter declaresType
      = (root.namedChildren.filter declaresType).map withoutComments :=
    filter_withoutComments (p := typeKinds.contains) (by decide) (by decide) root
  have hmem {m : Node} (hm : m ∈ root.namedChildren.filter declaresType) :
      m.preorder ⊆ root.preorder :=
    preorder_subset_of_mem_namedChildren (List.mem_of_mem_filter hm)
  simp only [extract, htypes, List.flatMap_map, packageOf_withoutComments,
    ofTree_withoutComments s h, hasError_withoutComments h, true_and]
  constructor
  · rw [List.map_flatMap, List.map_flatMap]
    apply List.flatMap_congr
    intro m hm
    apply map_typesOf_withoutComments _ _ (h.mono (hmem hm))
  · rintro ⟨hidden, hclear⟩
    congr 1
    apply List.flatMap_congr
    intro m hm
    apply typesOf_withoutComments _ (h.mono (hmem hm)) (hclear.mono (hmem hm))

/-- The source file `class A {/*c*/B f;}`. -/
def commentedField : Node :=
  shadowedNode "program" "" 0 19
    [shadowedNode "class_declaration" "" 0 19
      [shadowedNode "identifier" "name" 6 7 [],
        shadowedNode "class_body" "body" 8 19
          [shadowedNode "block_comment" "" 9 14 [],
            shadowedNode "field_declaration" "" 14 18
              [shadowedNode "type_identifier" "type" 14 15 [],
                shadowedNode "variable_declarator" "declarator" 16 17
                  [shadowedNode "identifier" "name" 16 17 []]]]]]

/-- A comment before a field is not read as a type. -/
theorem extract_withoutComments_of_commentedField :
  let s : Source := .ofBytes "class A {/*c*/B f;}".toUTF8
  commentedField.Everywhere CommentIsLeaf ∧ HidesNoType s commentedField
    ∧ extract s "A.java" commentedField.withoutComments = extract s "A.java" commentedField
    ∧ (extract s "A.java" commentedField).classes.map (·.fields)
      = [[⟨"f", "B", .packagePrivate⟩]]
  := by
  intro s
  have hleaf : commentedField.Everywhere CommentIsLeaf := by
    intro n hn
    revert n
    decide +kernel
  have hclear : HidesNoType s commentedField := by
    use fun _ => False
    intro n hn
    constructor
    all_goals
      revert n
      decide +kernel
  obtain ⟨-, -, hsame⟩ := extract_withoutComments s "A.java" hleaf
  use hleaf, hclear, hsame hclear
  decide +kernel

/-- The source file `class A extends/*c*/B{}`. -/
def commentedSuperclass : Node :=
  shadowedNode "program" "" 0 23
    [shadowedNode "class_declaration" "" 0 23
      [shadowedNode "identifier" "name" 6 7 [],
        shadowedNode "superclass" "superclass" 8 21
          [shadowedNode "block_comment" "" 15 20 [], shadowedNode "type_identifier" "" 20 21 []],
        shadowedNode "class_body" "body" 21 23 []]]

/-- A comment before the name of the superclass is read as a type. -/
theorem not_forall_extract_withoutComments :
  ¬ ∀ (s : Source) (path : String) (root : Node), root.Everywhere CommentIsLeaf →
    extract s path root.withoutComments = extract s path root
  := by
  intro h
  have hleaf : commentedSuperclass.Everywhere CommentIsLeaf := by
    intro n hn
    revert n
    decide +kernel
  have hclasses := congrArg FileFacts.classes
    (h (.ofBytes "class A extends/*c*/B{}".toUTF8) "A.java" commentedSuperclass hleaf)
  revert hclasses
  decide +kernel

end Java

end Cohesion
