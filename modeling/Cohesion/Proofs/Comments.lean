import Cohesion.Proofs.DeclaredTypes
import Mathlib.Data.List.Basic

/-!
# Trees without comments

The tree `n.withoutComments` is `n` without the comments below it.  A comment is a leaf that fills
no field, so that whatever is found below a node by its field or by its kind is found in both trees,
`child?_withoutComments`, `find?_withoutComments`.  What is found by its position only, such as the
first child that is no keyword, can be a comment.  A node `IsClear` if no comment stands where a
type is read below it.  If this is so everywhere, the types of the two trees have the same names,
`simpleType_withoutComments`, and so have the variables that are declared with these types,
`declaredVariables_withoutComments`, `declaredVariable_withoutComments`.
-/

namespace Cohesion.Java

namespace Node

/-- Whether a node is a comment. -/
def isComment (n : Node) : Bool :=
  n.kind = "line_comment" || n.kind = "block_comment"

mutual

/-- A tree without the comments below its root. -/
def withoutComments : Node → Node
  | mk label children => mk label (withoutCommentsAmong children)

/-- Trees without comments, also in their places. -/
def withoutCommentsAmong : List Node → List Node
  | [] => []
  | n :: ns =>
    if n.isComment then withoutCommentsAmong ns
    else n.withoutComments :: withoutCommentsAmong ns

end

/-- Something holds of every node of a tree. -/
def Everywhere (P : Node → Prop) (n : Node) : Prop :=
  ∀ m ∈ n.preorder, P m

/-- If the node is a comment, it is a leaf that fills no field and is not missing. -/
def CommentIsLeaf (n : Node) : Prop :=
  n.isComment → n.children = [] ∧ n.label.field = "" ∧ ¬ n.label.isMissing

instance (n : Node) : Decidable n.CommentIsLeaf :=
  inferInstanceAs (Decidable (n.isComment → _))

/-- No comment stands where a type is read among the children of the node.  Comments among the
parameters of a lambda expression read as names in `hidden`, and no identifier does. -/
structure IsClear (s : Source) (hidden : String → Prop) (n : Node) : Prop where
  first : n.kind = "generic_type" ∨ n.kind = "parenthesized_expression"
    ∨ n.label.field = "superclass" → ∀ c, n.firstNamed? = some c → ¬ c.isComment
  last : n.kind = "scoped_type_identifier" ∨ n.kind = "annotated_type" →
    ∀ c, n.lastNamed? = some c → ¬ c.isComment
  listed : n.kind = "super_interfaces" ∨ n.kind = "extends_interfaces" ∨ n.kind = "type_list" →
    ∀ c ∈ n.namedChildren, ¬ c.isComment
  caught : n.kind = "catch_type" → (n.namedChildren.filter (!·.isComment)).length ≤ 1 →
    ∀ c ∈ n.namedChildren, ¬ c.isComment
  parameters : n.kind = "inferred_parameters" →
    ∀ c ∈ n.namedChildren, c.isComment → hidden (c.text s)
  identifier : n.kind = "identifier" → ¬ hidden (n.text s)

variable {P : Node → Prop} {n c m : Node} {field : String} {q : Label → Bool}

theorem Everywhere.here (h : n.Everywhere P) :
  P n
  := h n (self_mem_preorder n)

/-- What holds everywhere in a tree holds everywhere in a part of it. -/
theorem Everywhere.mono (h : n.Everywhere P) (hsub : m.preorder ⊆ n.preorder) :
  m.Everywhere P
  := fun k hk => h k (hsub hk)

theorem Everywhere.of_mem_children (h : n.Everywhere P) (hc : c ∈ n.children) :
  c.Everywhere P
  := h.mono (preorder_subset_of_mem_children hc)

/-- What holds everywhere in a tree holds everywhere in its named children. -/
theorem Everywhere.of_mem_namedChildren (h : n.Everywhere P) (hc : c ∈ n.namedChildren) :
  c.Everywhere P
  := h.mono (preorder_subset_of_mem_namedChildren hc)

/-- What holds everywhere in a tree holds everywhere in its child at a field. -/
theorem Everywhere.of_child? (h : n.Everywhere P) (hc : n.child? field = some c) :
  c.Everywhere P
  := h.mono (preorder_subset_of_child? hc)

/-! ### Parts of a tree without comments -/

@[simp]
theorem label_withoutComments (n : Node) :
  n.withoutComments.label = n.label
  := by
  cases n
  rfl

@[simp]
theorem kind_withoutComments (n : Node) :
  n.withoutComments.kind = n.kind
  := by rw [kind, label_withoutComments, kind]

/-- Taking comments out of the tree changes no place in the source, and so no text. -/
@[simp]
theorem text_withoutComments (n : Node) (s : Source) :
  n.withoutComments.text s = n.text s
  := by rw [text, label_withoutComments, text]

/-- Without comments, a list of nodes is what remains of its nodes that are no comments. -/
theorem withoutCommentsAmong_eq (ns : List Node) :
  withoutCommentsAmong ns = (ns.filter (!·.isComment)).map withoutComments
  := by
  induction ns with
  | nil => rfl
  | cons n ns ih =>
    rw [withoutCommentsAmong, ih, List.filter_cons]
    cases n.isComment <;> rfl

/-- The children without comments are the children that are none, each without its own. -/
theorem children_withoutComments (n : Node) :
  n.withoutComments.children = withoutCommentsAmong n.children
  := by
  cases n
  rfl

/-- The named children without comments are those that are none, each without its own. -/
theorem namedChildren_withoutComments (n : Node) :
  n.withoutComments.namedChildren = (n.namedChildren.filter (!·.isComment)).map withoutComments
  := by
  rw [namedChildren, children_withoutComments, withoutCommentsAmong_eq, List.filter_map,
    namedChildren, List.filter_filter, List.filter_filter]
  simp only [Function.comp_def, label_withoutComments, Bool.and_comm]

/-- Children that are found by what is known about them, and are no comments, are found in both
trees. -/
theorem filter_children_withoutComments (h : ∀ c ∈ n.children, c.isComment → ¬ q c.label) :
  n.withoutComments.children.filter (q ·.label)
    = (n.children.filter (q ·.label)).map withoutComments
  := by
  have hfilter : n.children.filter (fun c => q c.label && !c.isComment)
      = n.children.filter (q ·.label) := by
    apply List.filter_congr
    intro c hc
    have hc := h c hc
    cases hcomment : c.isComment
    · rw [Bool.not_false, Bool.and_true]
    · simpa using (hc hcomment)
  rw [children_withoutComments, withoutCommentsAmong_eq, List.filter_map, List.filter_filter]
  simp only [Function.comp_def, label_withoutComments, hfilter]

/-- A kind that no comment has. -/
theorem not_kind_of_isComment {p : String → Bool} (hline : ¬ p "line_comment")
    (hblock : ¬ p "block_comment") (hc : c.isComment) :
  ¬ p c.kind
  := by
  rw [isComment, Bool.or_eq_true, decide_eq_true_iff, decide_eq_true_iff] at hc
  obtain hc | hc := hc
  · rw [hc]
    exact hline
  · rw [hc]
    exact hblock

/-- The children of some kinds are found in both trees. -/
theorem filter_withoutComments {p : String → Bool} (hline : ¬ p "line_comment")
    (hblock : ¬ p "block_comment") (n : Node) :
  n.withoutComments.namedChildren.filter (p ·.kind)
    = (n.namedChildren.filter (p ·.kind)).map withoutComments
  := by
  rw [namedChildren, namedChildren, List.filter_filter, List.filter_filter]
  apply filter_children_withoutComments (q := fun label => p label.kind && label.isNamed)
  intro c _ hc
  have := not_kind_of_isComment hline hblock hc
  rw [Bool.not_eq_true] at this
  change ¬ (p c.kind && c.label.isNamed) = true
  rw [this]
  apply Bool.false_ne_true

/-- The first child of some kinds is found in both trees. -/
theorem find?_withoutComments {p : String → Bool} (hline : ¬ p "line_comment")
    (hblock : ¬ p "block_comment") (n : Node) :
  n.withoutComments.namedChildren.find? (p ·.kind)
    = (n.namedChildren.find? (p ·.kind)).map withoutComments
  := by
  rw [← List.head?_filter, ← List.head?_filter, filter_withoutComments hline hblock,
    List.head?_map]

section

variable (h : n.Everywhere CommentIsLeaf)
include h

/-- The children that fill a field are found in both trees. -/
theorem childrenAt_withoutComments (hfield : field ≠ "") :
  n.withoutComments.childrenAt field = (n.childrenAt field).map withoutComments
  := by
  apply filter_children_withoutComments (q := fun label => label.field = field)
  intro c hc hcomment
  obtain ⟨-, hempty, -⟩ := (h.of_mem_children hc).here hcomment
  rw [hempty, decide_eq_true_iff]
  apply hfield.symm

/-- The child that fills a field is found in both trees. -/
theorem child?_withoutComments (hfield : field ≠ "") :
  n.withoutComments.child? field = (n.child? field).map withoutComments
  := by
  have hat := childrenAt_withoutComments h hfield
  rw [childrenAt, childrenAt] at hat
  rw [child?, child?, ← List.head?_filter, ← List.head?_filter, hat, List.head?_map]

/-- A comment never stands at the name, so the name stays where it was. -/
theorem child?_name_withoutComments :
  n.withoutComments.child? "name" = (n.child? "name").map withoutComments
  := child?_withoutComments h (by decide)

end

/-- The first named child stays the first when it is no comment. -/
theorem firstNamed?_withoutComments (h : ∀ c, n.firstNamed? = some c → ¬ c.isComment) :
  n.withoutComments.firstNamed? = n.firstNamed?.map withoutComments
  := by
  rw [firstNamed?, namedChildren_withoutComments, firstNamed?]
  rw [firstNamed?] at h
  cases hnamed : n.namedChildren with
  | nil => rfl
  | cons c cs =>
    have hc := h c (by rw [hnamed, List.head?_cons])
    rw [List.filter_cons_of_pos (by simpa using hc), List.map_cons, List.head?_cons,
      List.head?_cons, Option.map_some]

/-- The last named child stays the last when it is no comment. -/
theorem lastNamed?_withoutComments (h : ∀ c, n.lastNamed? = some c → ¬ c.isComment) :
  n.withoutComments.lastNamed? = n.lastNamed?.map withoutComments
  := by
  rw [lastNamed?, namedChildren_withoutComments, lastNamed?]
  rw [lastNamed?] at h
  obtain hnamed | ⟨cs, c, hnamed⟩ := List.eq_nil_or_concat n.namedChildren
  · rw [hnamed]
    rfl
  · rw [List.concat_eq_append] at hnamed
    have hc := h c (by rw [hnamed, List.getLast?_append, List.getLast?_singleton]; rfl)
    rw [hnamed, List.filter_append, List.filter_cons_of_pos (by simpa using hc), List.map_append]
    simp

/-- Where no named child is a comment, the named children stay as many as they were. -/
theorem namedChildren_withoutComments_of_forall (h : ∀ c ∈ n.namedChildren, ¬ c.isComment) :
  n.withoutComments.namedChildren = n.namedChildren.map withoutComments
  := by
  rw [namedChildren_withoutComments, List.filter_eq_self.mpr]
  intro c hc
  simpa using h c hc

mutual

/-- The nodes of some kind are found in both trees, if no comment is of that kind. -/
theorem filter_preorder_withoutComments :
  ∀ {n : Node}, (∀ m ∈ n.preorder, m.isComment → m.children = [] ∧ ¬ q m.label) →
    n.withoutComments.preorder.filter (q ·.label)
      = (n.preorder.filter (q ·.label)).map withoutComments
  | .mk label children, h => by
    have hchildren := filter_preorderOfAll_withoutComments fun m hm =>
      h m (List.mem_cons_of_mem _ hm)
    rw [preorder, withoutComments, preorder, List.filter_cons, List.filter_cons, hchildren]
    cases hq : q label
    · rw [if_neg (by simpa [Node.label] using hq), if_neg (by simpa [Node.label] using hq)]
    · rw [if_pos (by simpa [Node.label] using hq), if_pos (by simpa [Node.label] using hq),
        List.map_cons, withoutComments]

/-- The nodes with a label no comment has are the same, in the same order, without the comments. -/
theorem filter_preorderOfAll_withoutComments :
  ∀ {ns : List Node}, (∀ m ∈ preorderOfAll ns, m.isComment → m.children = [] ∧ ¬ q m.label) →
    (preorderOfAll (withoutCommentsAmong ns)).filter (q ·.label)
      = ((preorderOfAll ns).filter (q ·.label)).map withoutComments
  | [], _ => rfl
  | n :: ns, h => by
    rw [preorderOfAll] at h
    have hns := filter_preorderOfAll_withoutComments fun m hm =>
      h m (List.mem_append_right _ hm)
    rw [withoutCommentsAmong, preorderOfAll, List.filter_append, List.map_append, ← hns]
    split
    · rename_i hcomment
      obtain ⟨hleaf, hq⟩ := h n (List.mem_append_left _ (self_mem_preorder n)) hcomment
      rw [preorder_eq_cons, hleaf, List.flatMap_nil, List.filter_singleton,
        Bool.eq_false_iff.mpr hq]
      rfl
    · rw [preorderOfAll, List.filter_append,
        filter_preorder_withoutComments fun m hm => h m (List.mem_append_left _ hm)]

end

end Node

open Node

variable {s : Source} {hidden : String → Prop} {n : Node}

/-! ### Types -/

section

variable (h : n.Everywhere CommentIsLeaf) (hclear : n.Everywhere (IsClear s hidden))
include h hclear

/-- If no comment is read as a type, a type has the same name without comments. -/
theorem simpleType_withoutComments :
  simpleType s n.withoutComments = simpleType s n
  := by
  induction hsize : n.size using Nat.strongRecOn generalizing n with
  | ind size ih =>
    subst hsize
    -- The recursion goes into the first, the last or the element child, none of which is a comment.
    have hfirst : n.kind = "generic_type" →
        n.withoutComments.firstNamed?.map (simpleType s) = n.firstNamed?.map (simpleType s) := by
      intro hkind
      rw [firstNamed?_withoutComments (hclear.here.first (.inl hkind)), Option.map_map]
      apply Option.map_congr
      intro c hc
      have hmem := List.mem_of_head? hc
      apply ih _ (size_lt_of_firstNamed? hc) (h.of_mem_namedChildren hmem)
        (hclear.of_mem_namedChildren hmem) rfl
    have hlast : n.kind = "scoped_type_identifier" ∨ n.kind = "annotated_type" →
        n.withoutComments.lastNamed?.map (simpleType s) = n.lastNamed?.map (simpleType s) := by
      intro hkind
      rw [lastNamed?_withoutComments (hclear.here.last hkind), Option.map_map]
      apply Option.map_congr
      intro c hc
      have hmem := List.mem_of_getLast? hc
      apply ih _ (size_lt_of_lastNamed? hc) (h.of_mem_namedChildren hmem)
        (hclear.of_mem_namedChildren hmem) rfl
    have helement : (n.withoutComments.child? "element").map (simpleType s)
        = (n.child? "element").map (simpleType s) := by
      rw [child?_withoutComments h (by decide), Option.map_map]
      apply Option.map_congr
      intro c hc
      apply ih _ (size_lt_of_child? hc) (h.of_child? hc) (hclear.of_child? hc) rfl
    have hdimensions : (n.withoutComments.child? "dimensions").map (·.text s)
        = (n.child? "dimensions").map (·.text s) := by
      rw [child?_withoutComments h (by decide), Option.map_map]
      simp only [Function.comp_def, text_withoutComments]
    rw [simpleType_eq, simpleType_eq, kind_withoutComments, text_withoutComments, helement,
      hdimensions]
    split
    · rw [hfirst (by assumption)]
    · rw [hlast (.inl (by assumption))]
    · rw [hlast (.inr (by assumption))]
    · rfl
    · rfl

/-- The type an expression states does not depend on the comments. -/
theorem expressionType?_withoutComments :
  expressionType? s n.withoutComments = expressionType? s n
  := by
  induction hsize : n.size using Nat.strongRecOn generalizing n with
  | ind size ih =>
    subst hsize
    have htype : (n.withoutComments.child? "type").map (simpleType s)
        = (n.child? "type").map (simpleType s) := by
      rw [child?_withoutComments h (by decide), Option.map_map]
      apply Option.map_congr
      intro c hc
      apply simpleType_withoutComments (h.of_child? hc) (hclear.of_child? hc)
    have hinner : n.kind = "parenthesized_expression" →
        n.withoutComments.firstNamed?.bind (expressionType? s)
          = n.firstNamed?.bind (expressionType? s) := by
      intro hkind
      rw [firstNamed?_withoutComments (hclear.here.first (.inr (.inl hkind))), Option.bind_map]
      apply Option.bind_congr
      intro c hc
      have hmem := List.mem_of_head? hc
      apply ih _ (size_lt_of_firstNamed? hc) (h.of_mem_namedChildren hmem)
        (hclear.of_mem_namedChildren hmem) rfl
    rw [expressionType?_eq, expressionType?_eq, kind_withoutComments, htype]
    split
    · rfl
    · rfl
    · rw [hinner (by assumption)]
    · rfl
    · rfl

end

/-! ### Declarations -/

/-- The declarators of a field or local declaration have the same names without comments. -/
theorem map_fst_declaredVariables_withoutComments (h : n.Everywhere CommentIsLeaf) :
  (declaredVariables s n.withoutComments).map Prod.fst = (declaredVariables s n).map Prod.fst
  := by
  rw [declaredVariables, declaredVariables, child?_withoutComments h (by decide),
    childrenAt_withoutComments h (by decide)]
  cases n.child? "type" with
  | none => rfl
  | some type =>
    simp only [Option.map_some, List.map_filterMap, List.filterMap_map, Function.comp_def,
      Option.map_map]
    apply List.filterMap_congr
    intro declarator hdeclarator
    have hd := h.of_mem_children (List.mem_of_mem_filter hdeclarator)
    rw [child?_withoutComments hd (by decide), Option.map_map]
    simp only [Function.comp_def, text_withoutComments]

theorem exists_eq_cons_cons {α : Type} {xs : List α} (h : 1 < xs.length) :
  ∃ x y rest, xs = x :: y :: rest
  := by
  obtain _ | ⟨x, _ | ⟨y, rest⟩⟩ := xs
  · cases h
  · apply absurd h (Nat.lt_irrefl 1)
  · use x, y, rest

section

variable (h : n.Everywhere CommentIsLeaf) (hclear : n.Everywhere (IsClear s hidden))
include h hclear

/-- The type inferred from an initialiser does not depend on the comments. -/
theorem inferredType_withoutComments :
  inferredType s n.withoutComments = inferredType s n
  := by
  rw [inferredType, inferredType, child?_withoutComments h (by decide), Option.bind_map]
  congr 1
  apply Option.bind_congr
  intro value hvalue
  apply expressionType?_withoutComments (h.of_child? hvalue) (hclear.of_child? hvalue)

/-- The variables a declaration declares do not depend on the comments. -/
theorem declaredVariables_withoutComments :
  declaredVariables s n.withoutComments = declaredVariables s n
  := by
  rw [declaredVariables, declaredVariables, child?_withoutComments h (by decide),
    childrenAt_withoutComments h (by decide)]
  cases htype : n.child? "type" with
  | none => rfl
  | some type =>
    simp only [Option.map_some, List.filterMap_map, Function.comp_def, text_withoutComments]
    apply List.filterMap_congr
    intro declarator hdeclarator
    have hmem := List.mem_of_mem_filter hdeclarator
    have hd := h.of_mem_children hmem
    rw [child?_withoutComments hd (by decide), Option.map_map,
      inferredType_withoutComments hd (hclear.of_mem_children hmem),
      simpleType_withoutComments (h.of_child? htype) (hclear.of_child? htype)]
    simp only [Function.comp_def, text_withoutComments]

/-- The type of a catch parameter does not depend on the comments. -/
theorem caughtType_withoutComments :
  caughtType s n.withoutComments = caughtType s n
  := by
  rw [caughtType, caughtType,
    find?_withoutComments (p := fun kind => kind = "catch_type") (by decide) (by decide)]
  cases htypes : n.namedChildren.find? (·.kind = "catch_type") with
  | none => rfl
  | some types =>
    have hmem := List.mem_of_find?_eq_some htypes
    have ht := h.of_mem_namedChildren hmem
    have htclear := hclear.of_mem_namedChildren hmem
    have hkind : types.kind = "catch_type" := by simpa using List.find?_some htypes
    rw [Option.map_some]
    dsimp only
    by_cases hone : (types.namedChildren.filter (!·.isComment)).length ≤ 1
    · rw [namedChildren_withoutComments_of_forall (htclear.here.caught hkind hone)]
      cases hnamed : types.namedChildren with
      | nil => rfl
      | cons type others =>
        cases others with
        | nil =>
          have hmem : type ∈ types.namedChildren := by rw [hnamed]; apply List.mem_singleton_self
          apply simpleType_withoutComments (ht.of_mem_namedChildren hmem)
            (htclear.of_mem_namedChildren hmem)
        | cons _ _ => rfl
    · -- More than one type is caught, with and without comments among them.
      have hle := List.length_filter_le (!·.isComment) types.namedChildren
      have hlength : 1 < types.withoutComments.namedChildren.length := by
        rw [namedChildren_withoutComments, List.length_map]
        omega
      have hlength' : 1 < types.namedChildren.length := by omega
      obtain ⟨_, _, _, hnames⟩ := exists_eq_cons_cons hlength
      obtain ⟨_, _, _, hnames'⟩ := exists_eq_cons_cons hlength'
      rw [hnames, hnames']

/-- The variable a single declaration declares does not depend on the comments. -/
theorem declaredVariable_withoutComments :
  declaredVariable s n.withoutComments = declaredVariable s n
  := by
  rw [declaredVariable, declaredVariable, child?_withoutComments h (by decide),
    child?_withoutComments h (by decide), caughtType_withoutComments h hclear]
  cases n.child? "name" with
  | none => rfl
  | some name =>
    cases htype : n.child? "type" with
    | none =>
      simp only [Option.map_some, Option.map_none, text_withoutComments]
    | some type =>
      simp only [Option.map_some, text_withoutComments,
        simpleType_withoutComments (h.of_child? htype) (hclear.of_child? htype)]

/-- The variable a spread parameter declares does not depend on the comments. -/
theorem spreadVariable_withoutComments :
  spreadVariable s n.withoutComments = spreadVariable s n
  := by
  rw [spreadVariable, spreadVariable, child?_withoutComments h (by decide),
    find?_withoutComments (p := fun kind => kind = "variable_declarator") (by decide) (by decide),
    Option.bind_map]
  cases htype : n.child? "type" with
  | none => rfl
  | some type =>
    cases hdeclarator : n.namedChildren.find? (·.kind = "variable_declarator") with
    | none => rfl
    | some declarator =>
      have hd := h.of_mem_namedChildren (List.mem_of_find?_eq_some hdeclarator)
      rw [Option.bind_some, Option.bind_some, Function.comp_apply,
        child?_withoutComments hd (by decide), Option.map_some]
      cases declarator.child? "name" with
      | none => rfl
      | some name =>
        simp only [Option.map_some, text_withoutComments,
          simpleType_withoutComments (h.of_child? htype) (hclear.of_child? htype)]

/-- The variable a parameter declares does not depend on the comments. -/
theorem parameterVariable_withoutComments :
  parameterVariable s n.withoutComments = parameterVariable s n
  := by
  rw [parameterVariable, parameterVariable, kind_withoutComments,
    declaredVariable_withoutComments h hclear, spreadVariable_withoutComments h hclear]

end

/-- The parameters of a method are the same ones without comments. -/
theorem formalParameters_withoutComments (n : Node) :
  formalParameters n.withoutComments = (formalParameters n).map withoutComments
  := filter_withoutComments
    (p := fun kind => kind = "formal_parameter" || kind = "spread_parameter") (by decide)
    (by decide) n

end Cohesion.Java
