import Cohesion.Java.Calls
import Mathlib.Tactic.Use

/-!
# What a syntax tree reads as

The `Reading` of a tree keeps the kinds, fields and texts of its nodes, and forgets where they stand
in the source.  All that is made of a tree apart from the lines of calls depends on its reading: the
names of types, `simpleType_eq_of_reading`, the variables that a node declares,
`ownVariables_eq_of_reading`, and the call that it makes, `targets_ownCall_eq_of_reading`.
-/

namespace Cohesion

/-- The method and the receiver of a call. -/
def CallSite.target (call : CallSite) : String × String :=
  (call.method, call.receiver)

namespace Java

/-! ### Images that agree -/

section

variable {α β γ δ : Type} {f : α → γ} {g : β → γ}

/-- Two values with one image, or none on both sides. -/
theorem eq_none_or_exists_of_map_eq {a : Option α} {b : Option β} (h : a.map f = b.map g) :
  a = none ∧ b = none ∨ ∃ x y, a = some x ∧ b = some y ∧ f x = g y
  := by
  cases a with
  | none =>
    cases b with
    | none => exact Or.inl ⟨rfl, rfl⟩
    | some y => cases h
  | some x =>
    cases b with
    | none => cases h
    | some y => exact Or.inr ⟨x, y, rfl, rfl, Option.some.inj h⟩

/-- Two options equal under their images are bound alike by functions that agree on what has one
image. -/
theorem bind_eq_of_map_eq {k : α → Option δ} {l : β → Option δ} {a : Option α} {b : Option β}
    (h : a.map f = b.map g) (hkl : ∀ x y, a = some x → f x = g y → k x = l y) :
  a.bind k = b.bind l
  := by
  obtain ⟨rfl, rfl⟩ | ⟨x, y, rfl, rfl, hxy⟩ := eq_none_or_exists_of_map_eq h
  · rfl
  · apply hkl x y rfl hxy

/-- Two options equal under their images are mapped alike by functions that agree on what has one
image. -/
theorem map_eq_of_map_eq {k : α → δ} {l : β → δ} {a : Option α} {b : Option β}
    (h : a.map f = b.map g) (hkl : ∀ x y, a = some x → f x = g y → k x = l y) :
  a.map k = b.map l
  := by
  obtain ⟨rfl, rfl⟩ | ⟨x, y, rfl, rfl, hxy⟩ := eq_none_or_exists_of_map_eq h
  · rfl
  · rw [Option.map_some, Option.map_some, hkl x y rfl hxy]

/-- Two lists equal under their images are mapped alike by functions that agree on what has one
image. -/
theorem filterMap_eq_of_map_eq {k : α → Option δ} {l : β → Option δ} {xs : List α} {ys : List β}
    (h : xs.map f = ys.map g) (hkl : ∀ x y, f x = g y → k x = l y) :
  xs.filterMap k = ys.filterMap l
  := by
  induction xs generalizing ys with
  | nil =>
    obtain rfl := List.map_eq_nil_iff.mp h.symm
    rfl
  | cons x xs ih =>
    obtain ⟨y, ys, rfl, hxy, hrest⟩ := List.map_eq_cons_iff.mp h.symm
    rw [List.filterMap_cons, List.filterMap_cons, hkl x y hxy.symm, ih hrest.symm]

end

/-- What can be read of a tree wherever it stands in a source. -/
inductive Reading where
  | mk (kind field text : String) (isNamed : Bool) (children : List Reading)

namespace Reading

def kind : Reading → String
  | mk kind _ _ _ _ => kind

def field : Reading → String
  | mk _ field _ _ _ => field

def isNamed : Reading → Bool
  | mk _ _ _ isNamed _ => isNamed

end Reading

namespace Node

mutual

/-- What a tree reads as in a source. -/
def reading (s : Source) : Node → Reading
  | mk label children =>
    .mk label.kind label.field (s.slice label.start label.stop) label.isNamed (readings s children)

/-- What the trees of a list read as. -/
def readings (s : Source) : List Node → List Reading
  | [] => []
  | n :: ns => n.reading s :: readings s ns

end

variable {s s' : Source} {n n' : Node}

/-- The readings of a list of nodes are the readings of its nodes. -/
theorem readings_eq_map (s : Source) (ns : List Node) :
  readings s ns = ns.map (reading s)
  := by
  induction ns with
  | nil => rfl
  | cons n ns ih => rw [readings, ih, List.map_cons]

/-- The reading of a node is its kind, field, text and whether it is named, over the readings of its
children. -/
theorem reading_eq (s : Source) (n : Node) :
  n.reading s = .mk n.kind n.label.field (n.text s) n.label.isNamed (n.children.map (reading s))
  := by
  cases n
  rw [reading, readings_eq_map]
  rfl

theorem kind_reading (s : Source) (n : Node) :
  (n.reading s).kind = n.kind
  := by
  rw [reading_eq]
  rfl

theorem field_reading (s : Source) (n : Node) :
  (n.reading s).field = n.label.field
  := by
  rw [reading_eq]
  rfl

theorem isNamed_reading (s : Source) (n : Node) :
  (n.reading s).isNamed = n.label.isNamed
  := by
  rw [reading_eq]
  rfl

/-! ### Parts of trees that read alike -/

section

variable (h : n.reading s = n'.reading s')
include h

theorem kind_eq_of_reading :
  n.kind = n'.kind
  := by
  rw [reading_eq, reading_eq, Reading.mk.injEq] at h
  exact h.1

theorem text_eq_of_reading :
  n.text s = n'.text s'
  := by
  rw [reading_eq, reading_eq, Reading.mk.injEq] at h
  exact h.2.2.1

theorem isNamed_eq_of_reading :
  n.label.isNamed = n'.label.isNamed
  := by rw [← isNamed_reading s, ← isNamed_reading s', h]

/-- Nodes with one reading have children with the same readings. -/
theorem map_reading_children :
  n.children.map (reading s) = n'.children.map (reading s')
  := by
  rw [reading_eq, reading_eq, Reading.mk.injEq] at h
  exact h.2.2.2.2

/-- Nodes with one reading have children with one reading at every field. -/
theorem map_reading_child? (field : String) :
  (n.child? field).map (reading s) = (n'.child? field).map (reading s')
  := by
  have hfind (s : Source) (n : Node) :
      (n.child? field).map (reading s)
        = (n.children.map (reading s)).find? (·.field = field) := by
    simp only [child?, List.find?_map, Function.comp_def, field_reading]
  rw [hfind, hfind, map_reading_children h]

/-- Nodes with one reading have the same readings among the children at every field. -/
theorem map_reading_childrenAt (field : String) :
  (n.childrenAt field).map (reading s) = (n'.childrenAt field).map (reading s')
  := by
  have hfilter (s : Source) (n : Node) :
      (n.childrenAt field).map (reading s)
        = (n.children.map (reading s)).filter (·.field = field) := by
    simp only [childrenAt, List.filter_map, Function.comp_def, field_reading]
  rw [hfilter, hfilter, map_reading_children h]

/-- Nodes with one reading have named children with the same readings. -/
theorem map_reading_namedChildren :
  n.namedChildren.map (reading s) = n'.namedChildren.map (reading s')
  := by
  have hfilter (s : Source) (n : Node) :
      n.namedChildren.map (reading s) = (n.children.map (reading s)).filter (·.isNamed) := by
    simp only [namedChildren, List.filter_map, Function.comp_def, isNamed_reading]
  rw [hfilter, hfilter, map_reading_children h]

/-- Nodes with one reading have first named children of a kind with one reading. -/
theorem map_reading_namedOfKind? (kind : String) :
  (n.namedChildren.find? (·.kind = kind)).map (reading s)
    = (n'.namedChildren.find? (·.kind = kind)).map (reading s')
  := by
  have hfind (s : Source) (n : Node) :
      (n.namedChildren.find? (·.kind = kind)).map (reading s)
        = (n.namedChildren.map (reading s)).find? (·.kind = kind) := by
    simp only [List.find?_map, Function.comp_def, kind_reading]
  rw [hfind, hfind, map_reading_namedChildren h]

theorem map_reading_firstNamed? :
  n.firstNamed?.map (reading s) = n'.firstNamed?.map (reading s')
  := by
  rw [firstNamed?, firstNamed?, ← List.head?_map, ← List.head?_map, map_reading_namedChildren h]

theorem map_reading_lastNamed? :
  n.lastNamed?.map (reading s) = n'.lastNamed?.map (reading s')
  := by
  rw [lastNamed?, lastNamed?, ← List.getLast?_map, ← List.getLast?_map,
    map_reading_namedChildren h]

end

end Node

open Node

variable {s s' : Source} {n n' : Node}

/-! ### Types -/

/-- The simple name of a type, by one step of its recursion over the kinds of type nodes. -/
theorem simpleType_eq (s : Source) (n : Node) :
  simpleType s n
    = match n.kind with
      | "generic_type" => (n.firstNamed?.map (simpleType s)).getD (erase (n.text s))
      | "scoped_type_identifier" | "annotated_type" =>
        (n.lastNamed?.map (simpleType s)).getD (erase (n.text s))
      | "array_type" =>
        arrayOf (((n.child? "element").map (simpleType s)).getD unresolvedReceiver)
          (dimensionsOf ((n.child? "dimensions").map (·.text s)))
      | _ => erase (n.text s)
  := by
  rw [simpleType]
  split
  · split <;> simp [*]
  · split <;> simp [*]
  · split <;> simp [*]
  · dsimp only
    split <;> simp [*]
  · simp [*]

/-- The types a node lists, by one step of the recursion into its type lists. -/
theorem listedTypes_eq (s : Source) (n : Node) :
  listedTypes s n
    = n.namedChildren.flatMap fun c =>
      if c.kind = "type_list" then listedTypes s c else [simpleType s c]
  := by
  rw [listedTypes]
  simp only [List.flatMap_subtype, List.unattach_attach]

/-- The type an expression states, by one step of the recursion into parentheses. -/
theorem expressionType?_eq (s : Source) (n : Node) :
  expressionType? s n
    = match n.kind with
      | "object_creation_expression" | "cast_expression" => (n.child? "type").map (simpleType s)
      | "parenthesized_expression" => n.firstNamed?.bind (expressionType? s)
      | "string_literal" => some "String"
      | _ => none
  := by
  rw [expressionType?]
  split
  · simp [*]
  · simp [*]
  · split <;> simp [*]
  · simp [*]
  · simp [*]

/-- The simple name of a type depends on what the type reads as. -/
theorem simpleType_eq_of_reading (h : n.reading s = n'.reading s') :
  simpleType s n = simpleType s' n'
  := by
  induction hsize : n.size using Nat.strongRecOn generalizing n n' with
  | ind size ih =>
    subst hsize
    have hfirst := map_eq_of_map_eq (map_reading_firstNamed? h)
      (k := simpleType s) (l := simpleType s')
      fun x y hx hxy => ih _ (size_lt_of_firstNamed? hx) hxy rfl
    have hlast := map_eq_of_map_eq (map_reading_lastNamed? h)
      (k := simpleType s) (l := simpleType s')
      fun x y hx hxy => ih _ (size_lt_of_lastNamed? hx) hxy rfl
    have helement := map_eq_of_map_eq (map_reading_child? h "element")
      (k := simpleType s) (l := simpleType s') fun x y hx hxy => ih _ (size_lt_of_child? hx) hxy rfl
    have hdimensions := map_eq_of_map_eq (map_reading_child? h "dimensions")
      (k := (·.text s)) (l := (·.text s')) fun x y _ hxy => text_eq_of_reading hxy
    rw [simpleType_eq, simpleType_eq, kind_eq_of_reading h, text_eq_of_reading h, hfirst, hlast,
      helement, hdimensions]

/-- The type that an expression spells out depends on what the expression reads as. -/
theorem expressionType?_eq_of_reading (h : n.reading s = n'.reading s') :
  expressionType? s n = expressionType? s' n'
  := by
  induction hsize : n.size using Nat.strongRecOn generalizing n n' with
  | ind size ih =>
    subst hsize
    have htype := map_eq_of_map_eq (map_reading_child? h "type")
      (k := simpleType s) (l := simpleType s') fun x y _ hxy => simpleType_eq_of_reading hxy
    have hinner := bind_eq_of_map_eq (map_reading_firstNamed? h) (k := expressionType? s)
      (l := expressionType? s') fun x y hx hxy => ih _ (size_lt_of_firstNamed? hx) hxy rfl
    rw [expressionType?_eq, expressionType?_eq, kind_eq_of_reading h, htype, hinner]

/-! ### Declarations -/

/-- The type inferred for a declarator depends on its reading alone. -/
theorem inferredType_eq_of_reading (h : n.reading s = n'.reading s') :
  inferredType s n = inferredType s' n'
  := by
  have hvalue := bind_eq_of_map_eq (map_reading_child? h "value")
    (k := expressionType? s) (l := expressionType? s') fun x y _ hxy =>
      expressionType?_eq_of_reading hxy
  rw [inferredType, inferredType, hvalue]

/-- The variables a declaration declares depend on its reading alone. -/
theorem declaredVariables_eq_of_reading (h : n.reading s = n'.reading s') :
  declaredVariables s n = declaredVariables s' n'
  := by
  rw [declaredVariables, declaredVariables]
  obtain ⟨htype, htype'⟩ | ⟨type, type', htype, htype', hread⟩ :=
    eq_none_or_exists_of_map_eq (map_reading_child? h "type")
  · rw [htype, htype']
  · rw [htype, htype']
    apply filterMap_eq_of_map_eq (map_reading_childrenAt h "declarator")
    intro declarator declarator' hdeclarator
    rw [text_eq_of_reading hread, simpleType_eq_of_reading hread,
      inferredType_eq_of_reading hdeclarator]
    apply map_eq_of_map_eq (map_reading_child? hdeclarator "name")
    intro name name' _ hname
    rw [text_eq_of_reading hname]

/-- The type a catch parameter is given depends on its reading alone. -/
theorem caughtType_eq_of_reading (h : n.reading s = n'.reading s') :
  caughtType s n = caughtType s' n'
  := by
  rw [caughtType, caughtType]
  obtain ⟨hnone, hnone'⟩ | ⟨types, types', htypes, htypes', hread⟩ :=
    eq_none_or_exists_of_map_eq (map_reading_namedOfKind? h "catch_type")
  · rw [hnone, hnone']
  · have hnamed := map_reading_namedChildren hread
    rw [htypes, htypes']
    dsimp only
    generalize types.namedChildren = xs at hnamed
    generalize types'.namedChildren = ys at hnamed
    match xs, ys, hnamed with
    | [], [], _ => rfl
    | [x], [y], hnamed =>
      rw [List.map_singleton, List.map_singleton, List.singleton_inj] at hnamed
      apply simpleType_eq_of_reading hnamed
    | [_], _ :: _ :: _, hnamed => cases (List.cons.inj hnamed).2
    | _ :: _ :: _, [_], hnamed => cases (List.cons.inj hnamed).2
    | _ :: _ :: _, _ :: _ :: _, _ => rfl

/-- The variable a loop, resource or parameter declares depends on its reading alone. -/
theorem declaredVariable_eq_of_reading (h : n.reading s = n'.reading s') :
  declaredVariable s n = declaredVariable s' n'
  := by
  rw [declaredVariable, declaredVariable, caughtType_eq_of_reading h]
  obtain ⟨hname, hname'⟩ | ⟨name, name', hname, hname', hread⟩ :=
    eq_none_or_exists_of_map_eq (map_reading_child? h "name")
  · rw [hname, hname']
  · rw [hname, hname']
    dsimp only
    rw [text_eq_of_reading hread]
    obtain ⟨htype, htype'⟩ | ⟨type, type', htype, htype', hread⟩ :=
      eq_none_or_exists_of_map_eq (map_reading_child? h "type")
    · rw [htype, htype']
    · rw [htype, htype']
      dsimp only
      rw [simpleType_eq_of_reading hread]

/-- The variables a lambda binds depend on its reading alone. -/
theorem lambdaVariables_eq_of_reading (h : n.reading s = n'.reading s') :
  lambdaVariables s n = lambdaVariables s' n'
  := by
  rw [lambdaVariables, lambdaVariables]
  obtain ⟨hnone, hnone'⟩ | ⟨parameters, parameters', hparameters, hparameters', hread⟩ :=
    eq_none_or_exists_of_map_eq (map_reading_child? h "parameters")
  · rw [hnone, hnone']
  · rw [hparameters, hparameters']
    dsimp only
    rw [kind_eq_of_reading hread, text_eq_of_reading hread, ← List.filterMap_eq_map,
      ← List.filterMap_eq_map, filterMap_eq_of_map_eq (map_reading_namedChildren hread)]
    intro name name' hname
    rw [Function.comp_apply, Function.comp_apply, text_eq_of_reading hname]

/-- The variables that a node declares depend on what it reads as. -/
theorem ownVariables_eq_of_reading (h : n.reading s = n'.reading s') :
  ownVariables s n = ownVariables s' n'
  := by
  rw [ownVariables, ownVariables, kind_eq_of_reading h, declaredVariables_eq_of_reading h,
    declaredVariable_eq_of_reading h, lambdaVariables_eq_of_reading h]

/-! ### Calls -/

variable {e : Surroundings}

/-- The type of an accessed field depends on the reading of the access alone. -/
theorem accessedType_eq_of_reading (h : n.reading e.source = n'.reading s') :
  e.accessedType n = { e with source := s' }.accessedType n'
  := by
  have hobject := map_eq_of_map_eq (map_reading_child? h "object") (k := kind) (l := kind)
    fun x y _ hxy => kind_eq_of_reading hxy
  have hthis : (n.child? "object").any (·.kind = "this")
      = (n'.child? "object").any (·.kind = "this") := by
    rw [← Option.any_map (f := kind) (p := (· = "this")), hobject, Option.any_map]
  rw [Surroundings.accessedType, Surroundings.accessedType, hthis]
  obtain ⟨hnone, hnone'⟩ | ⟨field, field', hfield, hfield', hread⟩ :=
    eq_none_or_exists_of_map_eq (map_reading_child? h "field")
  · rw [hnone, hnone']
  · rw [hfield, hfield']
    cases e.scopes with
    | nil => rfl
    | cons scope scopes =>
      dsimp only
      rw [text_eq_of_reading hread]

/-- The receiver type of a call depends on the frames and the reading of the call alone. -/
theorem receiverType_eq_of_reading (frames : Frames) (h : n.reading e.source = n'.reading s') :
  e.receiverType frames n = { e with source := s' }.receiverType frames n'
  := by
  rw [Surroundings.receiverType, Surroundings.receiverType, kind_eq_of_reading h,
    text_eq_of_reading h, accessedType_eq_of_reading h, expressionType?_eq_of_reading h]
  rfl

/-- The call that a node makes depends on what the node reads as, apart from its line. -/
theorem targets_ownCall_eq_of_reading (frames : Frames) (h : n.reading e.source = n'.reading s') :
  (e.ownCall frames n).map CallSite.target
    = ({ e with source := s' }.ownCall frames n').map CallSite.target
  := by
  rw [Surroundings.ownCall, Surroundings.ownCall, kind_eq_of_reading h, Surroundings.call?,
    Surroundings.call?]
  split
  · obtain ⟨hnone, hnone'⟩ | ⟨name, name', hname, hname', hread⟩ :=
      eq_none_or_exists_of_map_eq (map_reading_child? h "name")
    · rw [hnone, hnone', Option.map_none, Option.map_none]
    · rw [hname, hname']
      obtain ⟨hobject, hobject'⟩ | ⟨object, object', hobject, hobject', hread'⟩ :=
        eq_none_or_exists_of_map_eq (map_reading_child? h "object")
      · simp [hobject, hobject', CallSite.target, text_eq_of_reading hread,
          Surroundings.unqualifiedOwner]
      · simp [hobject, hobject', CallSite.target, text_eq_of_reading hread,
          receiverType_eq_of_reading frames hread']
  · rfl

end Java

end Cohesion
