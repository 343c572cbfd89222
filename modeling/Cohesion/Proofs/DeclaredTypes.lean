import Cohesion.Java.Types
import Cohesion.Proofs.Readings

/-!
# The types of declared variables

A declaration records a type for each name that it declares: `Records s d x type`.  Declarators get
the type that is declared for all of them or, if it is the word `var`, the one that the initialiser
spells out.  A variable that is declared alone gets its declared type, whatever it is.  Inside a
method body and among the parameters of a method exactly these types are declared,
`mem_ownVariables_iff`, `mem_parameterVariable_iff`, and fields have such types, too,
`recordsIn_fieldsOf`.  The word `var` is recorded only for a variable that is declared alone, or
where a type of this name is spelled out: `Records.of_var`.
-/

namespace Cohesion.Java

open Node

variable {s : Source} {d : Node} {x type : String}

/-! ### Declarations of four shapes -/

/-- Each declarator of a declaration has the declared type or, if this is the word `var`, the one
that its initialiser spells out. -/
inductive OfDeclarators (s : Source) (d : Node) : (x type : String) → Prop
  | inferred {type declarator name : Node} : d.child? "type" = some type → type.text s = "var" →
      declarator ∈ d.childrenAt "declarator" → declarator.child? "name" = some name →
      OfDeclarators s d (name.text s) (inferredType s declarator)
  | declared {type declarator name : Node} : d.child? "type" = some type → type.text s ≠ "var" →
      declarator ∈ d.childrenAt "declarator" → declarator.child? "name" = some name →
      OfDeclarators s d (name.text s) (simpleType s type)

/-- A variable that is declared alone has the declared type, or the only one that is caught. -/
inductive OfVariable (s : Source) (d : Node) : (x type : String) → Prop
  | declared {type name : Node} : d.child? "type" = some type → d.child? "name" = some name →
      OfVariable s d (name.text s) (simpleType s type)
  | caught {types type name : Node} : d.child? "type" = none → d.child? "name" = some name →
      d.namedChildren.find? (·.kind = "catch_type") = some types → types.namedChildren = [type] →
      OfVariable s d (name.text s) (simpleType s type)
  | caughtAmong {name : Node} : d.child? "type" = none → d.child? "name" = some name →
      (∀ types type, d.namedChildren.find? (·.kind = "catch_type") = some types →
        types.namedChildren ≠ [type]) →
      OfVariable s d (name.text s) unresolvedReceiver

/-- The parameters of a lambda expression that stand without types have an unknown one. -/
inductive OfLambda (s : Source) (d : Node) : (x type : String) → Prop
  | one {name : Node} : d.child? "parameters" = some name → name.kind = "identifier" →
      OfLambda s d (name.text s) unresolvedReceiver
  | several {parameters name : Node} : d.child? "parameters" = some parameters →
      parameters.kind = "inferred_parameters" → name ∈ parameters.namedChildren →
      OfLambda s d (name.text s) unresolvedReceiver

/-- A parameter for any number of arguments is an array. -/
inductive OfSpread (s : Source) (d : Node) : (x type : String) → Prop
  | declared {type declarator name : Node} : d.child? "type" = some type →
      d.namedChildren.find? (·.kind = "variable_declarator") = some declarator →
      declarator.child? "name" = some name →
      OfSpread s d (name.text s) (arrayOf (simpleType s type) 1)

/-- A declaration records exactly what its declarators say. -/
theorem mem_declaredVariables_iff :
  (x, type) ∈ declaredVariables s d ↔ OfDeclarators s d x type
  := by
  rw [declaredVariables]
  constructor
  · intro hv
    split at hv
    · cases hv
    · rename_i typeNode htype
      obtain ⟨declarator, hdeclarator, hv⟩ := List.mem_filterMap.mp hv
      obtain ⟨name, hname, heq⟩ := Option.map_eq_some_iff.mp hv
      obtain ⟨rfl, rfl⟩ := Prod.mk.inj heq
      by_cases hvar : typeNode.text s = "var"
      · simp only [hvar, if_true]
        apply OfDeclarators.inferred htype hvar hdeclarator hname
      · simp only [hvar, if_false]
        apply OfDeclarators.declared htype hvar hdeclarator hname
  · rintro (⟨htype, hvar, hdeclarator, hname⟩ | ⟨htype, hvar, hdeclarator, hname⟩)
    · rw [htype]
      apply List.mem_filterMap.mpr ⟨_, hdeclarator, _⟩
      simp [hname, hvar]
    · rw [htype]
      apply List.mem_filterMap.mpr ⟨_, hdeclarator, _⟩
      simp [hname, hvar]

/-- A catch parameter without exactly one type is left unresolved. -/
theorem caughtType_of_forall_ne
    (h : ∀ types type, d.namedChildren.find? (·.kind = "catch_type") = some types →
      types.namedChildren ≠ [type]) :
  caughtType s d = unresolvedReceiver
  := by
  rw [caughtType]
  split
  · rfl
  · rename_i types htypes
    split
    · rename_i type hone
      apply absurd hone (h types type htypes)
    · rfl

/-- A single declaration records exactly what its name and type say. -/
theorem mem_declaredVariable_iff :
  (x, type) ∈ declaredVariable s d ↔ OfVariable s d x type
  := by
  rw [declaredVariable]
  constructor
  · intro hv
    split at hv
    · cases hv
    · rename_i name hname
      split at hv
      · rename_i typeNode htype
        obtain ⟨rfl, rfl⟩ := Prod.mk.inj (List.mem_singleton.mp hv)
        apply OfVariable.declared htype hname
      · rename_i htype
        obtain ⟨rfl, rfl⟩ := Prod.mk.inj (List.mem_singleton.mp hv)
        by_cases hone : ∃ types type, d.namedChildren.find? (·.kind = "catch_type") = some types
            ∧ types.namedChildren = [type]
        · obtain ⟨types, typeNode, htypes, hone⟩ := hone
          rw [caughtType, htypes]
          simp only [hone]
          apply OfVariable.caught htype hname htypes hone
        · have hmany : ∀ types type, d.namedChildren.find? (·.kind = "catch_type") = some types →
              types.namedChildren ≠ [type] :=
            fun types type htypes heq => hone ⟨types, type, htypes, heq⟩
          rw [caughtType_of_forall_ne hmany]
          apply OfVariable.caughtAmong htype hname hmany
  · rintro (⟨htype, hname⟩ | ⟨htype, hname, htypes, hone⟩ | ⟨htype, hname, hmany⟩)
    · simp [hname, htype]
    · simp [hname, htype, caughtType, htypes, hone]
    · simp [hname, htype, caughtType_of_forall_ne hmany]

/-- A lambda records exactly what its parameters say. -/
theorem mem_lambdaVariables_iff :
  (x, type) ∈ lambdaVariables s d ↔ OfLambda s d x type
  := by
  rw [lambdaVariables]
  constructor
  · intro hv
    split at hv
    · cases hv
    · rename_i parameters hparameters
      split at hv
      · rename_i hkind
        obtain ⟨rfl, rfl⟩ := Prod.mk.inj (List.mem_singleton.mp hv)
        apply OfLambda.one hparameters hkind
      · rename_i hkind
        obtain ⟨name, hname, heq⟩ := List.mem_map.mp hv
        obtain ⟨rfl, rfl⟩ := Prod.mk.inj heq
        apply OfLambda.several hparameters hkind hname
      · cases hv
  · rintro (⟨hparameters, hkind⟩ | ⟨hparameters, hkind, hname⟩)
    · simp [hparameters, hkind]
    · simp only [hparameters, hkind]
      apply List.mem_map.mpr ⟨_, hname, rfl⟩

/-- A spread parameter records exactly what its declarator and type say. -/
theorem mem_spreadVariable_iff :
  (x, type) ∈ spreadVariable s d ↔ OfSpread s d x type
  := by
  rw [spreadVariable]
  constructor
  · intro hv
    split at hv
    · rename_i typeNode name htype hname
      obtain ⟨declarator, hdeclarator, hname⟩ := Option.bind_eq_some_iff.mp hname
      obtain ⟨rfl, rfl⟩ := Prod.mk.inj (List.mem_singleton.mp hv)
      apply OfSpread.declared htype hdeclarator hname
    · cases hv
  · rintro ⟨htype, hdeclarator, hname⟩
    simp [htype, hdeclarator, hname]

/-! ### What a declaration records -/

/-- The declarations that may have several declarators. -/
def severalKinds : List String :=
  ["local_variable_declaration", "field_declaration", "constant_declaration"]

/-- The declarations of one variable in a method body or in the parameters of a method. -/
def singleKinds : List String :=
  ["formal_parameter", "catch_formal_parameter", "enhanced_for_statement", "resource"]

/-- The declaration at the node `d` records a type for the name `x`. -/
inductive Records (s : Source) (d : Node) (x type : String) : Prop
  | several : d.kind ∈ severalKinds → OfDeclarators s d x type → Records s d x type
  | single : d.kind ∈ singleKinds → OfVariable s d x type → Records s d x type
  | lambda : d.kind = "lambda_expression" → OfLambda s d x type → Records s d x type
  | spread : d.kind = "spread_parameter" → OfSpread s d x type → Records s d x type

theorem ownVariables_of_single (h : d.kind ∈ singleKinds) :
  ownVariables s d = declaredVariable s d
  := by
  simp only [singleKinds, List.mem_cons, List.not_mem_nil, or_false] at h
  obtain h | h | h | h := h <;> simp only [ownVariables, h]

/-- A node in a method body declares what it records. -/
theorem mem_ownVariables_iff :
  (x, type) ∈ ownVariables s d
    ↔ Records s d x type ∧ d.kind ≠ "constant_declaration" ∧ d.kind ≠ "spread_parameter"
  := by
  constructor
  · intro hv
    rw [ownVariables] at hv
    split at hv
    · use .several (by simp [*, severalKinds]) (mem_declaredVariables_iff.mp hv)
      simp [*]
    · use .several (by simp [*, severalKinds]) (mem_declaredVariables_iff.mp hv)
      simp [*]
    · use .single (by simp [*, singleKinds]) (mem_declaredVariable_iff.mp hv)
      simp [*]
    · use .single (by simp [*, singleKinds]) (mem_declaredVariable_iff.mp hv)
      simp [*]
    · use .single (by simp [*, singleKinds]) (mem_declaredVariable_iff.mp hv)
      simp [*]
    · use .single (by simp [*, singleKinds]) (mem_declaredVariable_iff.mp hv)
      simp [*]
    · use .lambda (by assumption) (mem_lambdaVariables_iff.mp hv)
      simp [*]
    · cases hv
  · rintro ⟨⟨hkind, h⟩ | ⟨hkind, h⟩ | ⟨hkind, h⟩ | ⟨hkind, -⟩, hconstant, hspread⟩
    · simp only [severalKinds, List.mem_cons, List.not_mem_nil, or_false] at hkind
      -- Constants are recorded as several variables, but not in the frame of their node.
      obtain hkind | hkind | hkind := hkind
      · simp only [ownVariables, hkind]
        apply mem_declaredVariables_iff.mpr h
      · simp only [ownVariables, hkind]
        apply mem_declaredVariables_iff.mpr h
      · apply absurd hkind hconstant
    · rw [ownVariables_of_single hkind]
      apply mem_declaredVariable_iff.mpr h
    · simp only [ownVariables, hkind]
      apply mem_lambdaVariables_iff.mpr h
    · apply absurd hkind hspread

/-- What a node puts in its frame is what it records. -/
theorem records_of_mem_ownVariables {v : String × String} (hv : v ∈ ownVariables s d) :
  Records s d v.1 v.2
  := (mem_ownVariables_iff.mp hv).1

/-- A parameter of a method declares what it records. -/
theorem mem_parameterVariable_iff
    (hkind : d.kind = "formal_parameter" ∨ d.kind = "spread_parameter") :
  (x, type) ∈ parameterVariable s d ↔ Records s d x type
  := by
  rw [parameterVariable]
  obtain hkind | hkind := hkind
  · have hsingle : d.kind ∈ singleKinds := by simp [hkind, singleKinds]
    rw [if_pos hkind, ← ownVariables_of_single hsingle, mem_ownVariables_iff]
    simp [hkind]
  · rw [if_neg (by simp [hkind]), mem_spreadVariable_iff]
    constructor
    · apply Records.spread hkind
    · rintro (⟨hother, -⟩ | ⟨hother, -⟩ | ⟨hother, -⟩ | ⟨-, h⟩)
      · simp [hkind, severalKinds] at hother
      · simp [hkind, singleKinds] at hother
      · simp [hkind] at hother
      · exact h

/-! ### Nodes of a tree -/

theorem preorderOfAll_eq (ns : List Node) :
  preorderOfAll ns = ns.flatMap preorder
  := by
  induction ns with
  | nil => rfl
  | cons n ns ih => rw [preorderOfAll, ih, List.flatMap_cons]

/-- The nodes of a tree are its root and those of its children. -/
theorem preorder_eq_cons (n : Node) :
  n.preorder = n :: n.children.flatMap preorder
  := by
  cases n
  rw [preorder, preorderOfAll_eq]
  rfl

theorem self_mem_preorder (n : Node) :
  n ∈ n.preorder
  := by
  rw [preorder_eq_cons]
  apply List.mem_cons_self

variable {c n m : Node} {field : String}

theorem preorder_subset_of_mem_children (h : c ∈ n.children) :
  c.preorder ⊆ n.preorder
  := by
  intro m hm
  rw [preorder_eq_cons n]
  apply List.mem_cons_of_mem
  apply List.mem_flatMap_of_mem h hm

/-- The nodes of a named child are nodes of its parent. -/
theorem preorder_subset_of_mem_namedChildren (h : c ∈ n.namedChildren) :
  c.preorder ⊆ n.preorder
  := preorder_subset_of_mem_children (mem_of_mem_namedChildren h)

/-- The nodes of the child at a field are nodes of its parent. -/
theorem preorder_subset_of_child? (h : n.child? field = some c) :
  c.preorder ⊆ n.preorder
  := preorder_subset_of_mem_children (List.mem_of_find?_eq_some h)

theorem preorder_subset_of_mem_memberContainers (h : c ∈ memberContainers n) :
  c.preorder ⊆ n.preorder
  := by
  rw [memberContainers] at h
  split at h
  · cases h
  · rename_i body hbody
    have hsub := preorder_subset_of_child? hbody
    split at h
    · apply List.Subset.trans (preorder_subset_of_mem_namedChildren (List.mem_filter.mp h).1) hsub
    · rw [List.mem_singleton.mp h]
      exact hsub

theorem preorder_subset_of_mem_constantBodies (h : c ∈ constantBodies n) :
  c.preorder ⊆ n.preorder
  := by
  rw [constantBodies] at h
  split at h
  · cases h
  · rename_i body hbody
    split at h
    · obtain ⟨constant, hconstant, hc⟩ := List.mem_filterMap.mp h
      have hsub := preorder_subset_of_mem_namedChildren (List.mem_filter.mp hconstant).1
      apply List.Subset.trans (preorder_subset_of_child? hc)
      apply List.Subset.trans hsub (preorder_subset_of_child? hbody)
    · cases h

/-- The nodes of a member are nodes of the declaration it belongs to. -/
theorem preorder_subset_of_mem_members (h : m ∈ membersOf n ++ constantMembersOf n) :
  m.preorder ⊆ n.preorder
  := by
  obtain h | h := List.mem_append.mp h
  · obtain ⟨c, hc, hm⟩ := List.mem_flatMap.mp h
    apply List.Subset.trans (preorder_subset_of_mem_namedChildren hm)
    apply preorder_subset_of_mem_memberContainers hc
  · obtain ⟨c, hc, hm⟩ := List.mem_flatMap.mp h
    apply List.Subset.trans (preorder_subset_of_mem_namedChildren hm)
    apply preorder_subset_of_mem_constantBodies hc

/-! ### Fields -/

/-- The node is a component of a record with a type of its own. -/
inductive IsComponent (s : Source) (d : Node) (x type : String) : Prop
  | mk {record parameters : Node} : record.child? "parameters" = some parameters →
      d ∈ parameters.namedChildren → (d.child? "type").isSome → OfVariable s d x type →
      IsComponent s d x type

/-- Some declaration in a tree records a type for a name, or a component of a record does. -/
def RecordsIn (s : Source) (root : Node) (x type : String) : Prop :=
  ∃ d ∈ root.preorder, Records s d x type ∨ IsComponent s d x type

/-- What is recorded in a part of a tree is recorded in the tree. -/
theorem RecordsIn.mono (h : RecordsIn s n x type) (hsub : n.preorder ⊆ m.preorder) :
  RecordsIn s m x type
  := by
  obtain ⟨d, hd, hrecords⟩ := h
  use d, hsub hd

/-- The components of a record have their declared types. -/
theorem recordsIn_recordFields {f : FieldFacts} (hf : f ∈ recordFields s n) :
  RecordsIn s n f.name f.type
  := by
  rw [recordFields] at hf
  split at hf
  · cases hf
  · rename_i parameters hparameters
    obtain ⟨parameter, hparameter, hf⟩ := List.mem_filterMap.mp hf
    split at hf
    · rename_i type name htype hname
      obtain rfl := Option.some.inj hf
      dsimp only
      have hsub : parameter.preorder ⊆ n.preorder :=
        List.Subset.trans (preorder_subset_of_mem_namedChildren hparameter)
          (preorder_subset_of_child? hparameters)
      have htyped : (parameter.child? "type").isSome := by rw [htype, Option.isSome_some]
      use parameter, hsub (self_mem_preorder parameter)
      apply Or.inr (IsComponent.mk hparameters hparameter htyped (OfVariable.declared htype hname))
    · cases hf

/-- What a type declares as its fields. -/
theorem recordsIn_fieldsOf {f : FieldFacts} (hf : f ∈ fieldsOf s n) :
  RecordsIn s n f.name f.type
  := by
  obtain hf | hf := List.mem_append.mp hf
  · apply recordsIn_recordFields hf
  · obtain ⟨member, hmember, hf⟩ := List.mem_flatMap.mp hf
    rw [memberFields] at hf
    split at hf
    · rename_i hkind
      obtain ⟨v, hv, rfl⟩ := List.mem_map.mp hf
      have hseveral : member.kind ∈ severalKinds := by
        rw [Bool.or_eq_true, decide_eq_true_iff, decide_eq_true_iff] at hkind
        obtain hkind | hkind := hkind <;> simp [hkind, severalKinds]
      use member
      constructor
      · apply preorder_subset_of_mem_members (List.mem_append_left _ hmember)
        apply self_mem_preorder
      · left
        apply Records.several hseveral (mem_declaredVariables_iff.mp hv)
    · cases hf

/-! ### The word `var` -/

/-- A variable that is declared alone has the type `var` if its declared or caught type is called
so. -/
theorem OfVariable.of_var (h : OfVariable s d x "var") :
  (∃ type, d.child? "type" = some type ∧ simpleType s type = "var")
    ∨ d.child? "type" = none ∧ ∃ types type,
      d.namedChildren.find? (·.kind = "catch_type") = some types
        ∧ types.namedChildren = [type] ∧ simpleType s type = "var"
  := by
  obtain ⟨type, hvar, h⟩ : ∃ type, type = "var" ∧ OfVariable s d x type := ⟨_, rfl, h⟩
  cases h with
  | declared htype hname => exact Or.inl ⟨_, htype, hvar⟩
  | caught htype hname htypes hone => exact Or.inr ⟨htype, _, _, htypes, hone, hvar⟩
  | caughtAmong =>
    apply absurd hvar
    decide

/-- Of several declarators one has the type `var` only if its initialiser spells out a type that is
called so, or if the declared type is called so without being the mere word. -/
theorem OfDeclarators.of_var (h : OfDeclarators s d x "var") :
  (∃ type, d.child? "type" = some type ∧ type.text s ≠ "var" ∧ simpleType s type = "var")
    ∨ ∃ declarator ∈ d.childrenAt "declarator", inferredType s declarator = "var"
  := by
  obtain ⟨type, hvar, h⟩ : ∃ type, type = "var" ∧ OfDeclarators s d x type := ⟨_, rfl, h⟩
  cases h with
  | inferred htype hword hdeclarator hname => exact Or.inr ⟨_, hdeclarator, hvar⟩
  | declared htype hword hdeclarator hname => exact Or.inl ⟨_, htype, hword, hvar⟩

/-- A lambda never records the word `var` as a type. -/
theorem OfLambda.ne_var (h : OfLambda s d x type) :
  type ≠ "var"
  := by
  cases h with
  | one | several => decide

/-- A spread parameter never records the word `var` as a type. -/
theorem OfSpread.ne_var (h : OfSpread s d x type) :
  type ≠ "var"
  := by
  cases h with
  | declared htype hdeclarator hname =>
    intro hvar
    have hlast := congrArg (·.toList.getLast?) hvar
    simp [arrayOf, String.join] at hlast

/-- The word `var` is recorded if the declared type is called so, but not if it is the mere word in
a declaration that may have several declarators; or if an initialiser spells out a type that is
called so, or such a type is caught. -/
theorem Records.of_var (h : Records s d x "var") :
  (∃ type, d.child? "type" = some type ∧ simpleType s type = "var"
      ∧ (d.kind ∈ severalKinds → type.text s ≠ "var"))
    ∨ (d.kind ∈ severalKinds ∧ ∃ declarator ∈ d.childrenAt "declarator",
      inferredType s declarator = "var")
    ∨ (d.kind ∈ singleKinds ∧ d.child? "type" = none ∧ ∃ types type,
      d.namedChildren.find? (·.kind = "catch_type") = some types ∧ types.namedChildren = [type]
        ∧ simpleType s type = "var")
  := by
  have happart : ∀ k ∈ singleKinds, k ∉ severalKinds := by decide
  obtain ⟨hkind, h⟩ | ⟨hkind, h⟩ | ⟨-, h⟩ | ⟨-, h⟩ := h
  · obtain ⟨type, htype, hword, hvar⟩ | h := h.of_var
    · exact Or.inl ⟨type, htype, hvar, fun _ => hword⟩
    · exact Or.inr (Or.inl ⟨hkind, h⟩)
  · obtain ⟨type, htype, hvar⟩ | h := h.of_var
    · exact Or.inl ⟨type, htype, hvar, fun hseveral => absurd hseveral (happart _ hkind)⟩
    · exact Or.inr (Or.inr ⟨hkind, h⟩)
  · apply absurd rfl h.ne_var
  · apply absurd rfl h.ne_var

end Cohesion.Java
