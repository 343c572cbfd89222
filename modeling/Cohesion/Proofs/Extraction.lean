import Cohesion.Proofs.LocalScopes
import Cohesion.Proofs.Records
import Mathlib.Data.List.Forall2

/-!
# The facts of a source file

The facts follow the lists of what is recorded one to one: the calls of a method body its
invocations, `forall₂_callsOf`, and the facts about types the recorded types, `forall₂_typesOf`.
Together with what these lists hold, no type and no call of a source file is lost or counted twice:
`extract_records_everything_once`.
-/

namespace Cohesion.Java

open Place Surroundings

/-! ### Facts about places -/

/-- The call is made by the invocation at a place. -/
def IsCallOf (s : Source) (call : CallSite) (p : Place) : Prop :=
  ∃ name, p.node.child? "name" = some name ∧ call.method = name.text s
    ∧ call.line = s.lineAt name.label.start

/-- The facts are about the method at a place, with a call for each invocation in its body. -/
def IsMethodAt (s : Source) (facts : MethodFacts) (m : Place) : Prop :=
  facts.name = ((m.node.child? "name").map (·.text s)).getD ""
    ∧ List.Forall₂ (IsCallOf s) facts.calls m.invocations

/-- The facts are about the type at a place, with facts about each of its methods. -/
def IsTypeAt (s : Source) (path : String) (facts : ClassFacts) (d : Place) : Prop :=
  (∃ name, d.node.child? "name" = some name ∧ facts.name = name.text s) ∧ facts.path = path
    ∧ List.Forall₂ (IsMethodAt s) facts.methods d.methods

/-- Lists related element by element are related after they are joined. -/
theorem forall₂_flatMap {α β γ : Type} {R : α → β → Prop} {f : γ → List α} {g : γ → List β}
    {xs : List γ} (h : ∀ x ∈ xs, List.Forall₂ R (f x) (g x)) :
  List.Forall₂ R (xs.flatMap f) (xs.flatMap g)
  := by
  induction xs with
  | nil => apply List.Forall₂.nil
  | cons x xs ih =>
    rw [List.flatMap_cons, List.flatMap_cons]
    apply List.rel_append (h x List.mem_cons_self)
    apply ih
    intro y hy
    apply h y (List.mem_cons_of_mem x hy)

/-! ### Calls -/

/-- A node makes a call itself exactly when it is an invocation. -/
theorem forall₂_ownCall (e : Surroundings) (frames : Frames) (p : Place) :
  List.Forall₂ (IsCallOf e.source) (e.ownCall frames p.node) ([p].filter (isInvocation ·.node))
  := by
  rw [ownCall, call?, List.filter_singleton, isInvocation, hasName]
  by_cases hkind : p.node.kind = "method_invocation"
  · cases hname : p.node.child? "name" with
    | none => simp [hkind]
    | some name =>
      simp only [hkind, if_true, Option.map_some, Option.toList_some, decide_true,
        Option.isSome_some, Bool.and_self, cond_true]
      apply List.Forall₂.cons _ List.Forall₂.nil
      use name, hname
  · simp [hkind]

/-- The calls of the trees of a list follow the invocations in those that are no keywords, if this
is so for each of them. -/
theorem forall₂_callsOfNamed (e : Surroundings) {ps : List Place}
    (h : ∀ p ∈ ps, p.node.label.isNamed → ∀ frames,
      List.Forall₂ (IsCallOf e.source) (callsOf e frames p.node).1
        (p.preorder.filter (isInvocation ·.node)))
    (frames : Frames) :
  List.Forall₂ (IsCallOf e.source) (callsOfNamed e frames (ps.map node)).1
    (((ps.filter (·.node.label.isNamed)).flatMap preorder).filter (isInvocation ·.node))
  := by
  induction ps generalizing frames with
  | nil => apply List.Forall₂.nil
  | cons p ps ih =>
    have ih := ih fun q hq => h q (List.mem_cons_of_mem p hq)
    rw [List.map_cons, callsOfNamed_cons, List.filter_cons]
    split
    · rw [List.flatMap_cons, List.filter_append]
      apply List.rel_append
      · apply h p List.mem_cons_self (by assumption)
      · apply ih
    · apply ih

/-- The calls of a tree follow its invocations. -/
theorem forall₂_callsOf (e : Surroundings) (frames : Frames) (p : Place) :
  List.Forall₂ (IsCallOf e.source) (callsOf e frames p.node).1
    (p.preorder.filter (isInvocation ·.node))
  := by
  induction p using Place.induction_on generalizing frames with
  | step p ih =>
    rw [callsOf_eq, preorder_eq, ← List.singleton_append, List.filter_append]
    apply List.rel_append (forall₂_ownCall e _ p)
    rw [← map_node_children]
    apply forall₂_callsOfNamed
    intro c hc hnamed frames
    apply ih c (List.mem_filter.mpr ⟨hc, hnamed⟩)

/-! ### Methods -/

/-- The facts about a method are those of its declaration. -/
theorem isMethodAt_methodFacts (e : Surroundings) (m : Place) :
  IsMethodAt e.source (methodFacts e m.node) m
  := by
  use rfl
  have hframes (locals : List (String × String)) : Frames.start.declareAll locals ≠ [] :=
    ((Frames.SameOuter.refl (List.cons_ne_nil _ _)).declareAll locals).ne_nil
  have hnode := map_node_child? m "body"
  cases hbody : m.child? "body" with
  | none =>
    rw [hbody, Option.map_none] at hnode
    simp only [methodFacts, invocations, hbody, ← hnode, Option.map_none, Option.getD_none,
      List.Forall₂.nil]
  | some body =>
    rw [hbody, Option.map_some] at hnode
    simp only [methodFacts, invocations, hbody, ← hnode, Option.map_some, Option.getD_some,
      collectCalls_eq e (hframes _)]
    apply forall₂_callsOf

/-! ### Types -/

/-- A declaration without a name gives no facts. -/
theorem typesOf_of_eq_none (c : FileContext) (outer : List TypeScope) {n : Node}
    (h : n.child? "name" = none) :
  typesOf c outer n = []
  := by
  rw [typesOf, h]

/-- A declaration gives the facts about itself, then those about its nested types. -/
theorem typesOf_of_eq_some (c : FileContext) (outer : List TypeScope) {n name : Node}
    (h : n.child? "name" = some name) :
  let scopes := scopeOf c.source (name.text c.source) n :: outer
  typesOf c outer n
    = classFactsOf c scopes (name.text c.source) n
      :: ((membersOf n ++ constantMembersOf n).filter declaresType).flatMap (typesOf c scopes)
  := by
  intro scopes
  rw [← flatMap_ite, typesOf, h]
  simp only [List.flatMap_subtype, List.unattach_attach, scopes]

/-- The facts about a class are those of its declaration. -/
theorem isTypeAt_classFactsOf (c : FileContext) (scopes : List TypeScope) {d : Place} {name : Node}
    (h : d.node.child? "name" = some name) :
  IsTypeAt c.source c.path (classFactsOf c scopes (name.text c.source) d.node) d
  := by
  use ⟨name, h, rfl⟩, rfl
  rw [classFactsOf, ← map_node_members, List.filter_map, List.map_map, List.forall₂_map_left_iff]
  apply List.forall₂_same.mpr
  intro m _
  apply isMethodAt_methodFacts

/-- The facts about the types among some nodes follow the types among their places. -/
theorem forall₂_typesAmong (c : FileContext) (scopes : List TypeScope) {ps : List Place}
    (h : ∀ p ∈ ps,
      List.Forall₂ (IsTypeAt c.source c.path) (typesOf c scopes p.node) p.typesAt) :
  List.Forall₂ (IsTypeAt c.source c.path)
    (((ps.map node).filter declaresType).flatMap (typesOf c scopes)) (typesAmong ps)
  := by
  rw [typesAmong, List.filter_map, List.flatMap_map]
  apply forall₂_flatMap
  intro p hp
  apply h p (List.mem_of_mem_filter hp)

/-- The facts given at a declaration are those of the types recorded there, in order. -/
theorem forall₂_typesOf (c : FileContext) (outer : List TypeScope) (d : Place) :
  List.Forall₂ (IsTypeAt c.source c.path) (typesOf c outer d.node) d.typesAt
  := by
  induction d using members_induction generalizing outer with
  | step d ih =>
    rw [typesAt_eq, hasName]
    cases hname : d.node.child? "name" with
    | none =>
      rw [typesOf_of_eq_none c outer hname]
      apply List.Forall₂.nil
    | some name =>
      rw [typesOf_of_eq_some c outer hname, ← map_node_members]
      apply List.Forall₂.cons
      · apply isTypeAt_classFactsOf c _ hname
      · apply forall₂_typesAmong
        intro m hm
        apply ih m hm

/-- The classes extracted from a file are those of its recorded declarations, in order. -/
theorem forall₂_extract (s : Source) (path : String) (root : Node) :
  List.Forall₂ (IsTypeAt s path) (extract s path root).classes (recorded root)
  := by
  rw [extract, recorded]
  have hroot : (ofRoot root).namedChildren.map node = root.namedChildren :=
    map_node_namedChildren _
  simp only [← hroot]
  apply forall₂_typesAmong ⟨s, path, packageOf s root, Imports.ofTree s root⟩
  intro p _
  apply forall₂_typesOf

/-! ### All calls of a source file -/

/-- The calls of the classes are the invocations of their methods, in order. -/
theorem forall₂_calls {s : Source} {path : String} {classes : List ClassFacts} {ds : List Place}
    (h : List.Forall₂ (IsTypeAt s path) classes ds) :
  List.Forall₂ (IsCallOf s) (classes.flatMap ClassFacts.calls)
    (ds.flatMap fun d => d.methods.flatMap invocations)
  := by
  apply List.rel_flatMap h
  intro c d hd
  apply List.rel_flatMap hd.2.2
  intro m p hm
  exact hm.2

/-- The facts of a source file are about every recorded type once, before those nested in it, and
hold one call for every invocation with a name in the body of a method of these types, in pre-order
for each method.  No type in a method body is recorded, so that its calls are those of the method. -/
theorem extract_records_everything_once (s : Source) (path : String) (root : Node) :
  List.Forall₂ (IsTypeAt s path) (extract s path root).classes (recorded root)
    ∧ (∀ d, d ∈ recorded root ↔ IsRecorded root d)
    ∧ (∀ d m : Place, m ∈ d.methods ↔ d.IsMember m ∧ declaresMethod m.node)
    ∧ (recorded root).Pairwise (fun d d' => ¬ d'.Contains d)
    ∧ List.Forall₂ (IsCallOf s) ((extract s path root).classes.flatMap ClassFacts.calls)
      (allInvocations root)
    ∧ (∀ p, p ∈ allInvocations root
      ↔ ∃ body, IsRecordedBody root body ∧ body.Reaches p ∧ isInvocation p.node)
    ∧ (allInvocations root).Pairwise (fun p q => p.path ≠ q.path)
    ∧ (∀ m : Place, m.invocations.Pairwise fun p q => p.path < q.path)
    ∧ ∀ body d, IsRecordedBody root body → body.Reaches d → ¬ IsRecorded root d
  := by
  have hfacts := forall₂_extract s path root
  use hfacts, fun d => mem_recorded, fun d m => mem_methods, pairwise_recorded root
  use forall₂_calls hfacts, fun p => mem_allInvocations, pairwise_allInvocations root
  use pairwise_invocations
  rintro body t ⟨d, m, hd, hm, hmethod, hbody⟩ ht hrecorded
  apply not_contains_of_isRecorded hd hm hmethod hrecorded
  apply (above_of_child? hbody).contains.trans ht.contains

end Cohesion.Java
