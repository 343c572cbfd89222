import Cohesion.Proofs.DeclaredTypes
import Cohesion.Proofs.Extraction
import Cohesion.Proofs.ScopeEnds

/-!
# The receivers of calls through variables

At a node of a method body the local variables are those before the body, those that the nodes
around it declare, and those that the trees before these leave behind: `FramesAt`.  A call is made
under the variables at its node, `exists_framesAt_of_mem_callsOf`, and all of them have types that
declarations of the source file record for their names.  So a call through a variable has the type
that is recorded for the innermost one of this name, and a call through a field the type that is
recorded for the field: `receivers_are_recorded_types`.
-/

namespace Cohesion.Java

open Frames Surroundings Node

variable {P : String → String → Prop} {frames now : Frames} {x type : String}

/-! ### Properties of all variables -/

theorem mem_of_lookUp? {entries : List (String × String)} (h : lookUp? entries x = some type) :
  (x, type) ∈ entries
  := by
  obtain ⟨v, hv, rfl⟩ := Option.map_eq_some_iff.mp h
  obtain rfl : v.1 = x := by simpa using List.find?_some hv
  apply List.mem_of_find?_eq_some hv

/-- All local variables have a property. -/
def HoldsAll (P : String → String → Prop) (frames : Frames) : Prop :=
  ∀ frame ∈ frames, ∀ v ∈ frame, P v.1 v.2

namespace HoldsAll

theorem start :
  HoldsAll P Frames.start
  := by
  intro frame hframe v hv
  rw [List.mem_singleton.mp hframe] at hv
  cases hv

theorem push (h : HoldsAll P frames) :
  HoldsAll P frames.push
  := by
  rw [HoldsAll, Frames.push, List.forall_mem_cons]
  constructor
  · rintro v ⟨⟩
  · exact h

/-- Declaring a variable with the property keeps it for all that the frames hold. -/
theorem declare (h : HoldsAll P frames) {v : String × String} (hv : P v.1 v.2) :
  HoldsAll P (frames.declare v.1 v.2)
  := by
  cases frames with
  | nil => exact h
  | cons frame outer =>
    rw [HoldsAll, List.forall_mem_cons] at h
    rw [HoldsAll, Frames.declare, List.forall_mem_cons, List.forall_mem_cons]
    use ⟨hv, h.1⟩, h.2

/-- Declaring variables with the property keeps it for all that the frames hold. -/
theorem declareAll (h : HoldsAll P frames) {locals : List (String × String)}
    (hlocals : ∀ v ∈ locals, P v.1 v.2) :
  HoldsAll P (frames.declareAll locals)
  := by
  induction locals generalizing frames with
  | nil => exact h
  | cons v locals ih =>
    obtain ⟨hv, hrest⟩ := List.forall_mem_cons.mp hlocals
    apply ih (h.declare hv) hrest

end HoldsAll

/-! ### The variables at a node -/

/-- The local variables inside a node. -/
def Frames.inside (s : Source) (frames : Frames) (n : Node) : Frames :=
  Frames.declareAll (if opensScope n then frames.push else frames) (ownVariables s n)

/-- Entering a node keeps the property when its own variables have it. -/
theorem HoldsAll.inside (h : HoldsAll P frames) {n : Node} {s : Source}
    (hn : ∀ v ∈ ownVariables s n, P v.1 v.2) :
  HoldsAll P (frames.inside s n)
  := by
  apply HoldsAll.declareAll _ hn
  split
  · apply h.push
  · exact h

/-- The local variables at a node in a tree: those before the tree, those that the nodes around it
declare, and those that the trees before these leave behind. -/
inductive FramesAt (s : Source) : Frames → Node → Node → Frames → Prop
  | here {frames : Frames} {n : Node} : FramesAt s frames n n (frames.inside s n)
  | child {frames now : Frames} {n c p : Node} {before after : List Node} :
      n.children = before ++ c :: after → c.label.isNamed →
      FramesAt s ((frames.inside s n).declareAll (leftBehindNamed s before)) c p now →
      FramesAt s frames n p now

variable {s : Source} {e : Surroundings} {call : CallSite} {n m p : Node}

mutual

/-- A call is made by an invocation, under the local variables there. -/
theorem exists_framesAt_of_mem_callsOf {frames : Frames} :
  ∀ {n : Node}, call ∈ (callsOf e frames n).1 →
    ∃ p now, FramesAt e.source frames n p now ∧ p.kind = "method_invocation"
      ∧ e.call? now p = some call
  | .mk label children, hcall => by
    rw [callsOf_eq, List.mem_append] at hcall
    obtain hown | hbelow := hcall
    · rw [ownCall] at hown
      split at hown
      · refine ⟨_, _, FramesAt.here, by assumption, ?_⟩
        apply Option.mem_toList.mp hown
      · cases hown
    · obtain ⟨before, c, after, hchildren, hc, p, now, hnow, hcall⟩ :=
        exists_framesAt_of_mem_callsOfNamed hbelow
      use p, now, FramesAt.child hchildren hc hnow

/-- Every call of a list of nodes is made at an invocation below one of them, in the frames there. -/
theorem exists_framesAt_of_mem_callsOfNamed {frames : Frames} :
  ∀ {ns : List Node}, call ∈ (callsOfNamed e frames ns).1 →
    ∃ before c after, ns = before ++ c :: after ∧ c.label.isNamed ∧ ∃ p now,
      FramesAt e.source (frames.declareAll (leftBehindNamed e.source before)) c p now
        ∧ p.kind = "method_invocation" ∧ e.call? now p = some call
  | [], hcall => by cases hcall
  | n :: ns, hcall => by
    rw [callsOfNamed_cons] at hcall
    split at hcall
    · rename_i hn
      obtain hcall | hcall := List.mem_append.mp hcall
      · use [], n, ns, rfl, hn
        apply exists_framesAt_of_mem_callsOf hcall
      · obtain ⟨before, c, after, rfl, hc, hcall⟩ := exists_framesAt_of_mem_callsOfNamed hcall
        use n :: before, c, after, rfl, hc
        -- The walk goes on under what `n` leaves behind.
        rw [leftBehindNamed, if_pos hn, declareAll_append, ← snd_callsOf]
        exact hcall
    · rename_i hn
      obtain ⟨before, c, after, rfl, hc, hcall⟩ := exists_framesAt_of_mem_callsOfNamed hcall
      use n :: before, c, after, rfl, hc
      rw [leftBehindNamed, if_neg hn, List.nil_append]
      exact hcall

end

/-- A member that a declaration exposes is one of its nodes. -/
theorem mem_preorder_of_exposes (h : Exposes n m) :
  m ∈ n.preorder
  := by
  induction h with
  | here => apply self_mem_preorder
  | child _ hc _ ih => apply preorder_subset_of_mem_namedChildren hc ih

namespace FramesAt

/-- Frames are found at nodes of the tree alone. -/
theorem mem_preorder (h : FramesAt s frames n p now) :
  p ∈ n.preorder
  := by
  induction h with
  | here => apply self_mem_preorder
  | child hchildren _ _ ih =>
    apply preorder_subset_of_mem_children _ ih
    rw [hchildren]
    apply List.mem_append_right _ List.mem_cons_self

/-- The variables at a node have a property if those before the tree have it, and those that its
nodes declare. -/
theorem holdsAll (h : FramesAt s frames n p now) (hframes : HoldsAll P frames)
    (hn : ∀ d ∈ n.preorder, ∀ v ∈ ownVariables s d, P v.1 v.2) :
  HoldsAll P now
  := by
  induction h with
  | here => apply hframes.inside (hn _ (self_mem_preorder _))
  | @child frames now n c p before after hchildren hc _ ih =>
    have hinside : HoldsAll P (frames.inside s n) :=
      hframes.inside (hn n (self_mem_preorder n))
    have hsub : ∀ b ∈ before ++ c :: after, b.preorder ⊆ n.preorder := by
      rw [← hchildren]
      intro b hb
      apply preorder_subset_of_mem_children hb
    apply ih
    · apply hinside.declareAll
      intro v hv
      rw [leftBehindNamed_eq] at hv
      obtain ⟨b, hb, hv⟩ := List.mem_flatMap.mp hv
      obtain ⟨m, hm, hv⟩ := mem_leftBehind.mp hv
      have hmem := List.mem_append_left (c :: after) (List.mem_filter.mp hb).1
      apply hn m (hsub b hmem (mem_preorder_of_exposes hm)) v hv
    · intro d hd
      apply hn d (hsub c (List.mem_append_right _ List.mem_cons_self) hd)

end FramesAt

/-! ### Receivers -/

/-- A name that is looked up among fields has the type of one of them, or none is called so. -/
theorem lookUp?_fields (fields : List FieldFacts) (x : String) :
  (∃ f ∈ fields, f.name = x
      ∧ lookUp? (fields.map fun f => (f.name, f.type)).reverse x = some f.type)
    ∨ (∀ f ∈ fields, f.name ≠ x)
      ∧ lookUp? (fields.map fun f => (f.name, f.type)).reverse x = none
  := by
  cases hlookUp : lookUp? (fields.map fun f => (f.name, f.type)).reverse x with
  | some type =>
    left
    obtain ⟨f, hf, heq⟩ := List.mem_map.mp (List.mem_reverse.mp (mem_of_lookUp? hlookUp))
    obtain ⟨hname, htype⟩ := Prod.mk.inj heq
    use f, hf, hname
    rw [htype]
  | none =>
    right
    rw [lookUp?, Option.map_eq_none_iff, List.find?_eq_none] at hlookUp
    constructor
    · intro f hf hname
      apply hlookUp (f.name, f.type) (List.mem_reverse.mpr (List.mem_map_of_mem hf))
      simp [hname]
    · rfl

/-- The call that an invocation makes under recorded local variables.  Through a variable it has the
type of the innermost one of this name, and through a field of the class, or behind `this`, the type
of the field.  Any other name is that of a field of a class around this one, or it stands for a type
or for nothing. -/
structure IsRecordedCall (s : Source) (root : Node) (fields : List FieldFacts) (now : Frames)
    (p : Node) (call : CallSite) : Prop where
  kind_eq : p.kind = "method_invocation"
  method_eq : ∃ name, p.child? "name" = some name ∧ call.method = name.text s
  recorded : HoldsAll (RecordsIn s root) now
  through_variable : ∀ object type, p.child? "object" = some object → object.kind = "identifier" →
    now.type? (object.text s) = some type → call.receiver = type
  through_name : ∀ object, p.child? "object" = some object → object.kind = "identifier" →
    now.type? (object.text s) = none →
      (∃ f ∈ fields, f.name = object.text s ∧ f.type = call.receiver)
        ∨ (∀ f ∈ fields, f.name ≠ object.text s)
          ∧ (RecordsIn s root (object.text s) call.receiver
            ∨ call.receiver = if (object.text s).toList.head?.any isUpperCase then object.text s
              else unresolvedReceiver)
  through_this : ∀ object field, p.child? "object" = some object → object.kind = "field_access" →
    (object.child? "object").any (·.kind = "this") → object.child? "field" = some field →
      (∃ f ∈ fields, f.name = field.text s ∧ f.type = call.receiver)
        ∨ (∀ f ∈ fields, f.name ≠ field.text s) ∧ call.receiver = unresolvedReceiver

/-- The innermost scope is that of a type with some fields, and all scopes hold recorded types. -/
structure IsRecordedScopes (s : Source) (root : Node) (fields : List FieldFacts)
    (scopes : List TypeScope) : Prop where
  recorded : ∀ scope ∈ scopes, ∀ v ∈ scope.fields, RecordsIn s root v.1 v.2
  innermost : ∃ scope outer, scopes = scope :: outer
    ∧ scope.fields = (fields.map fun f => (f.name, f.type)).reverse

variable {root : Node} {fields : List FieldFacts}

/-- A name that is no variable means a field of the class, or else a field of a class around it, a
type or nothing. -/
theorem namedType_of_eq_none (hscopes : IsRecordedScopes e.source root fields e.scopes)
    (hx : now.type? x = none) :
  (∃ f ∈ fields, f.name = x ∧ f.type = e.namedType now x)
    ∨ (∀ f ∈ fields, f.name ≠ x) ∧ (RecordsIn e.source root x (e.namedType now x)
      ∨ e.namedType now x = if x.toList.head?.any isUpperCase then x else unresolvedReceiver)
  := by
  obtain ⟨hrecorded, scope, outer, hcons, hfields⟩ := hscopes
  rw [namedType, hx, hcons, TypeScope.field?, List.findSome?_cons, hfields]
  obtain ⟨f, hf, hname, hlookUp⟩ | ⟨hnames, hlookUp⟩ := lookUp?_fields fields x
  · left
    rw [hlookUp]
    use f, hf, hname
    rfl
  · right
    rw [hlookUp]
    use hnames
    cases houter : outer.findSome? fun scope => lookUp? scope.fields x with
    | some type =>
      left
      obtain ⟨around, haround, hlookUp⟩ := List.exists_of_findSome?_eq_some houter
      apply hrecorded around _ _ (mem_of_lookUp? hlookUp)
      rw [hcons]
      apply List.mem_cons_of_mem _ haround
    | none => exact Or.inr rfl

/-- Behind `this` a name means a field of the class. -/
theorem exists_field_of_accessedType (hscopes : IsRecordedScopes e.source root fields e.scopes)
    {object field : Node} (hthis : (object.child? "object").any (·.kind = "this"))
    (hfield : object.child? "field" = some field) :
  (∃ f ∈ fields, f.name = field.text e.source ∧ f.type = e.accessedType object)
    ∨ (∀ f ∈ fields, f.name ≠ field.text e.source) ∧ e.accessedType object = unresolvedReceiver
  := by
  obtain ⟨-, scope, outer, hcons, hfields⟩ := hscopes
  rw [accessedType, if_pos hthis, hfield, hcons]
  dsimp only
  rw [hfields]
  obtain ⟨f, hf, hname, hlookUp⟩ | ⟨hnames, hlookUp⟩ := lookUp?_fields fields (field.text e.source)
  · left
    rw [hlookUp]
    use f, hf, hname
    rfl
  · right
    rw [hlookUp]
    use hnames
    rfl

/-- A call under recorded variables and fields has a recorded receiver. -/
theorem isRecordedCall_of_call? (hscopes : IsRecordedScopes e.source root fields e.scopes)
    (hnow : HoldsAll (RecordsIn e.source root) now) (hkind : p.kind = "method_invocation")
    (hcall : e.call? now p = some call) :
  IsRecordedCall e.source root fields now p call
  := by
  obtain ⟨name, hname, rfl⟩ := Option.map_eq_some_iff.mp hcall
  constructor
  · exact hkind
  · use name, hname
  · exact hnow
  · intro object type hobject hidentifier htype
    simp only [hobject, receiverType, hidentifier, namedType, htype]
    rfl
  · intro object hobject hidentifier hnone
    simp only [hobject, receiverType, hidentifier]
    apply namedType_of_eq_none hscopes hnone
  · intro object field hobject haccess hthis hfield
    simp only [hobject, receiverType, haccess]
    apply exists_field_of_accessedType hscopes hthis hfield

/-! ### Methods and types -/

/-- The parameters of a method as local variables. -/
def parameterVariables (s : Source) (m : Node) : List (String × String) :=
  (((m.child? "parameters").map formalParameters).getD []).flatMap (parameterVariable s)

/-- The parameters of a method are recorded in it. -/
theorem recordsIn_parameterVariables {v : String × String} (hv : v ∈ parameterVariables s m) :
  RecordsIn s m v.1 v.2
  := by
  obtain ⟨parameter, hparameter, hv⟩ := List.mem_flatMap.mp hv
  cases hparameters : m.child? "parameters" with
  | none =>
    rw [hparameters] at hparameter
    cases hparameter
  | some parameters =>
    rw [hparameters] at hparameter
    use parameter
    constructor
    · apply preorder_subset_of_child? hparameters
      apply preorder_subset_of_mem_namedChildren (List.mem_filter.mp hparameter).1
      apply self_mem_preorder
    · have hkind := (List.mem_filter.mp hparameter).2
      rw [Bool.or_eq_true, decide_eq_true_iff, decide_eq_true_iff] at hkind
      apply Or.inl ((mem_parameterVariable_iff hkind).mp hv)

/-- The calls of a method are those of its body under its parameters. -/
theorem exists_body_of_mem_calls (h : call ∈ (methodFacts e m).calls) :
  ∃ body, m.child? "body" = some body
    ∧ call ∈ (callsOf e (Frames.start.declareAll (parameterVariables e.source m)) body).1
  := by
  cases hbody : m.child? "body" with
  | none =>
    simp only [methodFacts, hbody] at h
    cases h
  | some body =>
    simp only [methodFacts, hbody, Option.map_some, Option.getD_some] at h
    rw [collectCalls_eq e (declareAll_start_ne_nil _)] at h
    use body, rfl, h

/-- The fields of a class are recorded, and so are its calls, each under the local variables at the
invocation that makes it. -/
def IsRecordedClass (s : Source) (root : Node) (c : ClassFacts) : Prop :=
  (∀ f ∈ c.fields, RecordsIn s root f.name f.type)
    ∧ ∀ call ∈ c.calls, ∃ m ∈ root.preorder, ∃ body, m.child? "body" = some body ∧ ∃ p now,
      FramesAt s (Frames.start.declareAll (parameterVariables s m)) body p now
        ∧ IsRecordedCall s root c.fields now p call

/-- The calls of a method of a source file are recorded. -/
theorem isRecordedCall_of_mem_calls (hscopes : IsRecordedScopes e.source root fields e.scopes)
    (hm : m.preorder ⊆ root.preorder) (hcall : call ∈ (methodFacts e m).calls) :
  ∃ body, m.child? "body" = some body ∧ ∃ p now,
    FramesAt e.source (Frames.start.declareAll (parameterVariables e.source m)) body p now
      ∧ IsRecordedCall e.source root fields now p call
  := by
  obtain ⟨body, hbody, hcall⟩ := exists_body_of_mem_calls hcall
  obtain ⟨p, now, hnow, hkind, hcall⟩ := exists_framesAt_of_mem_callsOf hcall
  have hsub := List.Subset.trans (preorder_subset_of_child? hbody) hm
  have hparameters : ∀ v ∈ parameterVariables e.source m, RecordsIn e.source root v.1 v.2 :=
    fun v hv => (recordsIn_parameterVariables hv).mono hm
  have hvariables : ∀ d ∈ body.preorder, ∀ v ∈ ownVariables e.source d,
      RecordsIn e.source root v.1 v.2 := by
    intro d hd v hv
    use d, hsub hd, Or.inl (records_of_mem_ownVariables hv)
  use body, hbody, p, now, hnow
  apply isRecordedCall_of_call? hscopes _ hkind hcall
  apply hnow.holdsAll (HoldsAll.start.declareAll hparameters) hvariables

/-- The scope of a type in a file holds what is recorded in that file. -/
theorem isRecordedScopes_scopeOf {outer : List TypeScope} {name : String} {d : Node}
    (houter : ∀ scope ∈ outer, ∀ v ∈ scope.fields, RecordsIn s root v.1 v.2)
    (hd : d.preorder ⊆ root.preorder) :
  IsRecordedScopes s root (fieldsOf s d) (scopeOf s name d :: outer)
  := by
  constructor
  · rw [List.forall_mem_cons]
    constructor
    · intro v hv
      obtain ⟨f, hf, rfl⟩ := List.mem_map.mp (List.mem_reverse.mp hv)
      apply (recordsIn_fieldsOf hf).mono hd
    · exact houter
  · use scopeOf s name d, outer, rfl
    rfl

/-- The facts about a type and those nested in it are recorded. -/
theorem isRecordedClass_of_mem_typesOf {c : FileContext} {outer : List TypeScope} {d : Node}
    (houter : ∀ scope ∈ outer, ∀ v ∈ scope.fields, RecordsIn c.source root v.1 v.2)
    (hd : d.preorder ⊆ root.preorder) :
  ∀ facts ∈ typesOf c outer d, IsRecordedClass c.source root facts
  := by
  -- Members are found in the bodies of a type and not among its children.
  induction hsize : d.size using Nat.strongRecOn generalizing d outer with
  | ind size ih =>
    subst hsize
    cases hname : d.child? "name" with
    | none =>
      rw [typesOf_of_eq_none c outer hname]
      rintro _ ⟨⟩
    | some name =>
      have hscopes : IsRecordedScopes c.source root _ (scopeOf _ (name.text c.source) d :: outer) :=
        isRecordedScopes_scopeOf houter hd
      rw [typesOf_of_eq_some c outer hname, List.forall_mem_cons]
      constructor
      · constructor
        · intro f hf
          apply (recordsIn_fieldsOf hf).mono hd
        · intro call hcall
          obtain ⟨_, hmethod, hcall⟩ := List.mem_flatMap.mp hcall
          obtain ⟨m, hm, rfl⟩ := List.mem_map.mp hmethod
          have hsub := preorder_subset_of_mem_members (List.mem_filter.mp hm).1
          use m, hd (hsub (self_mem_preorder m))
          apply isRecordedCall_of_mem_calls hscopes (List.Subset.trans hsub hd) hcall
      · intro facts hfacts
        obtain ⟨m, hm, hfacts⟩ := List.mem_flatMap.mp hfacts
        have hmember := (List.mem_filter.mp hm).1
        apply ih m.size (size_lt_of_mem_members hmember) hscopes.recorded _ rfl facts hfacts
        apply List.Subset.trans (preorder_subset_of_mem_members hmember) hd

/-- The types of fields, and the receivers of calls through variables and fields, are types that
declarations of the source file record for their names, and inside a method body and among its
parameters a declaration declares what it records.  The word `var` is recorded only for a variable
that is declared alone, or where a type of this name is spelled out. -/
theorem receivers_are_recorded_types (s : Source) (path : String) (root : Node) :
  (∀ c ∈ (extract s path root).classes, IsRecordedClass s root c)
    ∧ (∀ d x type, (x, type) ∈ ownVariables s d
      ↔ Records s d x type ∧ d.kind ≠ "constant_declaration" ∧ d.kind ≠ "spread_parameter")
    ∧ (∀ d x type, d.kind = "formal_parameter" ∨ d.kind = "spread_parameter" →
      ((x, type) ∈ parameterVariable s d ↔ Records s d x type))
    ∧ ∀ d x, Records s d x "var" →
      (∃ type, d.child? "type" = some type ∧ simpleType s type = "var"
          ∧ (d.kind ∈ severalKinds → type.text s ≠ "var"))
        ∨ (d.kind ∈ severalKinds ∧ ∃ declarator ∈ d.childrenAt "declarator",
          inferredType s declarator = "var")
        ∨ (d.kind ∈ singleKinds ∧ d.child? "type" = none ∧ ∃ types type,
          d.namedChildren.find? (·.kind = "catch_type") = some types ∧ types.namedChildren = [type]
            ∧ simpleType s type = "var")
  := by
  refine ⟨?_, fun d x type => mem_ownVariables_iff, fun d x type => mem_parameterVariable_iff,
    fun d x => Records.of_var⟩
  intro c hc
  obtain ⟨d, hd, hc⟩ := List.mem_flatMap.mp hc
  apply isRecordedClass_of_mem_typesOf _ _ c hc
  · rintro scope ⟨⟩
  · apply preorder_subset_of_mem_namedChildren (List.mem_filter.mp hd).1

/-- The loop of a source file whose variable leaves its type to the compiler. -/
def inferringLoop : Node :=
  shadowedNode "enhanced_for_statement" "" 17 35
    [shadowedNode "type_identifier" "type" 21 24 [],
      shadowedNode "identifier" "name" 25 26 [],
      shadowedNode "identifier" "value" 27 28 [],
      shadowedNode "expression_statement" "body" 29 35
        [shadowedNode "method_invocation" "" 29 34
          [shadowedNode "identifier" "object" 29 30 [], shadowedNode "identifier" "name" 31 32 []]]]

/-- A source file with a loop in its only method. -/
def inferringFile : Node :=
  shadowedNode "program" "" 0 37
    [shadowedNode "class_declaration" "" 0 37
      [shadowedNode "identifier" "name" 6 7 [],
        shadowedNode "class_body" "body" 7 37
          [shadowedNode "method_declaration" "" 8 36
            [shadowedNode "identifier" "name" 13 14 [],
              shadowedNode "formal_parameters" "parameters" 14 16 [],
              shadowedNode "block" "body" 16 36 [inferringLoop]]]]]

/-- The text of the source file. -/
def inferringSource : Source :=
  .ofBytes "class T{void m(){for(var x:y)x.f();}}".toUTF8

/-- The loop records the type of its variable as it stands there, and the class of the file is
recorded. -/
theorem receivers_are_recorded_types_of_loop :
  Records inferringSource inferringLoop "x" "var"
    ∧ ∃ c, (extract inferringSource "T.java" inferringFile).classes = [c]
      ∧ c.calls = [⟨"f", "var", 0⟩] ∧ IsRecordedClass inferringSource inferringFile c
  := by
  obtain ⟨hclasses, hown, -, -⟩ :=
    receivers_are_recorded_types inferringSource "T.java" inferringFile
  constructor
  · have hmem : ("x", "var") ∈ ownVariables inferringSource inferringLoop := by decide +kernel
    apply ((hown inferringLoop "x" "var").mp hmem).1
  · have hcalls : (extract inferringSource "T.java" inferringFile).classes.map (·.calls)
        = [[⟨"f", "var", 0⟩]] := by decide +kernel
    obtain ⟨c, hc, hcalls⟩ := List.map_eq_singleton_iff.mp hcalls
    use c, hc, hcalls
    apply hclasses c
    rw [hc]
    apply List.mem_singleton_self

/-- The word `var` is recorded for the variable of a loop, and it is the receiver of a call through
this variable, although no expression of the source file spells out a type that is called so. -/
theorem not_forall_receiver_ne_var :
  ¬ ∀ (s : Source) (path : String) (root : Node),
    (∀ p ∈ root.preorder, expressionType? s p ≠ some "var") →
      (∀ d ∈ root.preorder, ∀ v ∈ ownVariables s d, v.2 ≠ "var")
        ∧ ∀ c ∈ (extract s path root).classes, ∀ call ∈ c.calls, call.receiver ≠ "var"
  := by
  intro hall
  obtain ⟨-, hcalls⟩ := hall inferringSource "T.java" inferringFile (by decide +kernel)
  revert hcalls
  decide +kernel

end Cohesion.Java
