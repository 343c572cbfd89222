import Cohesion.Java.Types
import Cohesion.Proofs.LocalScopes
import Cohesion.Proofs.Readings

/-!
# Where scopes end

A tree in a method body leaves behind those of its variables that are declared outside of all nodes
in it that open a scope, `snd_callsOf`, and so nothing if it opens a scope itself.  A change inside
a tree of a method body never changes the receiver of a call before it, and that of a call after it
only if other variables are left behind: `receivers_around_change`.
-/

namespace Cohesion.Java

open Frames Surroundings Node

variable {e : Surroundings} {s s' : Source} {frames : Frames} {n n' : Node}

/-! ### What a tree leaves behind -/

mutual

/-- The variables of a tree that are declared outside of all nodes in it that open a scope. -/
def leftBehind (s : Source) : Node → List (String × String)
  | .mk label children =>
    if opensScope (.mk label children) then []
    else ownVariables s (.mk label children) ++ leftBehindNamed s children

/-- The variables that the trees of a list that are no keywords leave behind. -/
def leftBehindNamed (s : Source) : List Node → List (String × String)
  | [] => []
  | n :: ns => (if n.label.isNamed then leftBehind s n else []) ++ leftBehindNamed s ns

end

/-- A node that opens no scope leaves behind what it declares and what its children do. -/
theorem leftBehind_eq (s : Source) (n : Node) :
  leftBehind s n
    = if opensScope n then [] else ownVariables s n ++ leftBehindNamed s n.children
  := by
  cases n
  rw [leftBehind]
  rfl

/-- A list of nodes leaves behind what each of its named nodes does. -/
theorem leftBehindNamed_eq (s : Source) (ns : List Node) :
  leftBehindNamed s ns = (ns.filter (·.label.isNamed)).flatMap (leftBehind s)
  := by
  induction ns with
  | nil => rfl
  | cons n ns ih =>
    rw [leftBehindNamed, ih, List.filter_cons]
    split
    · rw [List.flatMap_cons]
    · rfl

/-- No node on the way from `n` down to `m` opens a scope. -/
inductive Exposes : Node → Node → Prop
  | here {n : Node} : ¬ opensScope n → Exposes n n
  | child {n c m : Node} : ¬ opensScope n → c ∈ n.namedChildren → Exposes c m → Exposes n m

/-- What is left behind are the variables of the nodes around which no scope is opened. -/
theorem mem_leftBehind {v : String × String} :
  v ∈ leftBehind s n ↔ ∃ m, Exposes n m ∧ v ∈ ownVariables s m
  := by
  induction hsize : n.size using Nat.strongRecOn generalizing n with
  | ind size ih =>
    subst hsize
    rw [leftBehind_eq]
    split
    · rename_i hopens
      constructor
      · rintro ⟨⟩
      · rintro ⟨m, hn | ⟨hn, -, -⟩, -⟩
        · apply absurd hopens hn
        · apply absurd hopens hn
    · rename_i hopens
      rw [leftBehindNamed_eq, List.mem_append, List.mem_flatMap]
      constructor
      · rintro (hown | ⟨c, hc, hv⟩)
        · use n, .here hopens
        · obtain ⟨m, hm, hv⟩ := (ih c.size (size_lt_of_mem_namedChildren hc) rfl).mp hv
          use m, .child hopens hc hm
      · rintro ⟨m, hn | ⟨-, hc, hm⟩, hv⟩
        · exact Or.inl hv
        · right
          refine ⟨_, hc, ?_⟩
          apply (ih _ (size_lt_of_mem_namedChildren hc) rfl).mpr
          use m

theorem declareAll_append (frames : Frames) (xs ys : List (String × String)) :
  frames.declareAll (xs ++ ys) = (frames.declareAll xs).declareAll ys
  := List.foldl_append

theorem declareAll_start_ne_nil (locals : List (String × String)) :
  Frames.start.declareAll locals ≠ []
  := ((SameOuter.refl (List.cons_ne_nil _ _)).declareAll locals).ne_nil

theorem tail_declareAll (frames : Frames) (locals : List (String × String)) :
  (frames.declareAll locals).tail = frames.tail
  := by
  induction locals generalizing frames with
  | nil => rfl
  | cons v locals ih =>
    change ((frames.declare v.1 v.2).declareAll locals).tail = frames.tail
    rw [ih]
    cases frames with
    | nil => rfl
    | cons frame outer => rfl

mutual

/-- After a tree the local variables are those before it and those that the tree leaves behind. -/
theorem snd_callsOf (e : Surroundings) (frames : Frames) :
  ∀ n : Node, (callsOf e frames n).2 = frames.declareAll (leftBehind e.source n)
  | .mk label children => by
    rw [callsOf_eq, leftBehind]
    change leave (callsOfNamed e _ children).2 _ = _
    rw [snd_callsOfNamed, enter, ← declareAll_append, leave]
    split
    · rw [tail_declareAll]
      rfl
    · rfl

/-- After a list of nodes the frames are those before, with what the nodes leave behind. -/
theorem snd_callsOfNamed (e : Surroundings) (frames : Frames) :
  ∀ ns : List Node, (callsOfNamed e frames ns).2 = frames.declareAll (leftBehindNamed e.source ns)
  | [] => rfl
  | n :: ns => by
    rw [callsOfNamed_cons, leftBehindNamed, declareAll_append]
    split
    · change (callsOfNamed e (callsOf e frames n).2 ns).2 = _
      rw [snd_callsOf e frames n, snd_callsOfNamed]
    · apply snd_callsOfNamed

end

/-! ### Trees that read alike -/

/-- Nodes with one reading open scopes together or not at all. -/
theorem opensScope_eq_of_reading (h : n.reading s = n'.reading s') :
  opensScope n = opensScope n'
  := by rw [opensScope, opensScope, kind_eq_of_reading h]

mutual

/-- What a node leaves behind depends on its reading alone. -/
theorem leftBehind_eq_of_reading :
  ∀ {n n' : Node}, n.reading s = n'.reading s' → leftBehind s n = leftBehind s' n'
  | .mk label children, n', h => by
    rw [leftBehind_eq, leftBehind_eq, opensScope_eq_of_reading h, ownVariables_eq_of_reading h,
      leftBehindNamed_eq_of_reading (map_reading_children h)]

/-- What a list of nodes leaves behind depends on their readings alone. -/
theorem leftBehindNamed_eq_of_reading :
  ∀ {ns ns' : List Node}, ns.map (reading s) = ns'.map (reading s') →
    leftBehindNamed s ns = leftBehindNamed s' ns'
  | [], ns', h => by
    obtain rfl := List.map_eq_nil_iff.mp h.symm
    rfl
  | n :: ns, ns', h => by
    obtain ⟨n', ns', rfl, hn, hns⟩ := List.map_eq_cons_iff.mp h.symm
    rw [leftBehindNamed, leftBehindNamed, isNamed_eq_of_reading hn,
      leftBehind_eq_of_reading hn.symm,
      leftBehindNamed_eq_of_reading hns.symm]

end

mutual

/-- Trees that read alike make the same calls under the same local variables, apart from their
lines. -/
theorem targets_callsOf_eq_of_reading (frames : Frames) :
  ∀ {n n' : Node}, n.reading e.source = n'.reading s' →
    (callsOf e frames n).1.map CallSite.target
      = (callsOf { e with source := s' } frames n').1.map CallSite.target
  | .mk label children, n', h => by
    have henter : e.enter frames (.mk label children)
        = { e with source := s' }.enter frames n' := by
      rw [enter, enter, opensScope_eq_of_reading h, ownVariables_eq_of_reading h]
    rw [callsOf_eq, callsOf_eq, List.map_append, List.map_append, henter,
      targets_ownCall_eq_of_reading _ h,
      targets_callsOfNamed_eq_of_reading _ (map_reading_children h)]

/-- The targets of the calls of a list of nodes depend on their readings alone. -/
theorem targets_callsOfNamed_eq_of_reading (frames : Frames) :
  ∀ {ns ns' : List Node}, ns.map (reading e.source) = ns'.map (reading s') →
    (callsOfNamed e frames ns).1.map CallSite.target
      = (callsOfNamed { e with source := s' } frames ns').1.map CallSite.target
  | [], ns', h => by
    obtain rfl := List.map_eq_nil_iff.mp h.symm
    rfl
  | n :: ns, ns', h => by
    obtain ⟨n', ns', rfl, hn, hns⟩ := List.map_eq_cons_iff.mp h.symm
    have hafter : (callsOf e frames n).2 = (callsOf { e with source := s' } frames n').2 := by
      rw [snd_callsOf, snd_callsOf, leftBehind_eq_of_reading hn.symm]
    rw [callsOfNamed_cons, callsOfNamed_cons, isNamed_eq_of_reading hn]
    split
    · rw [List.map_append, List.map_append, targets_callsOf_eq_of_reading frames hn.symm, hafter,
        targets_callsOfNamed_eq_of_reading _ hns.symm]
    · apply targets_callsOfNamed_eq_of_reading frames hns.symm

end

/-! ### Trees that agree around a part -/

/-- Two nodes in two sources that declare the same and make the same call, whatever is below
them. -/
structure SameItself (e : Surroundings) (s' : Source) (n n' : Node) : Prop where
  opensScope_eq : opensScope n = opensScope n'
  ownVariables_eq : ownVariables e.source n = ownVariables s' n'
  targets_eq : ∀ frames, (e.ownCall frames n).map CallSite.target
    = ({ e with source := s' }.ownCall frames n').map CallSite.target

/-- Two trees in two sources that agree except for what stands at one place, which is `t` in the one
and `t'` in the other: the nodes around it declare and call the same, and the trees beside it read
alike. -/
inductive AgreeAround (e : Surroundings) (s' : Source) (t t' : Node) : Node → Node → Prop
  | here : AgreeAround e s' t t' t t'
  | inside {n n' c c' : Node} {before after before' after' : List Node} :
      SameItself e s' n n' → n.children = before ++ c :: after →
      n'.children = before' ++ c' :: after' → c.label.isNamed → c'.label.isNamed →
      before.map (reading e.source) = before'.map (reading s') →
      after.map (reading e.source) = after'.map (reading s') → AgreeAround e s' t t' c c' →
      AgreeAround e s' t t' n n'

/-- The calls of trees one after the other. -/
theorem fst_callsOfNamed_append (e : Surroundings) (frames : Frames) (xs ys : List Node) :
  (callsOfNamed e frames (xs ++ ys)).1
    = (callsOfNamed e frames xs).1
      ++ (callsOfNamed e (frames.declareAll (leftBehindNamed e.source xs)) ys).1
  := by
  induction xs generalizing frames with
  | nil => rfl
  | cons x xs ih =>
    rw [List.cons_append, callsOfNamed_cons, callsOfNamed_cons, leftBehindNamed, declareAll_append]
    split
    · rw [ih, List.append_assoc, snd_callsOf]
    · apply ih

theorem leftBehindNamed_append (s : Source) (xs ys : List Node) :
  leftBehindNamed s (xs ++ ys) = leftBehindNamed s xs ++ leftBehindNamed s ys
  := by
  induction xs with
  | nil => rfl
  | cons x xs ih => rw [List.cons_append, leftBehindNamed, leftBehindNamed, ih, List.append_assoc]

/-- The calls of a node are its own, those before one of its children, those of this child and those
after it. -/
theorem fst_callsOf_of_children {inside now : Frames} {c : Node} {before after : List Node}
    (hinside : e.enter frames n = inside)
    (hnow : inside.declareAll (leftBehindNamed e.source before) = now)
    (hchildren : n.children = before ++ c :: after) (hc : c.label.isNamed) :
  (callsOf e frames n).1
    = e.ownCall inside n ++ (callsOfNamed e inside before).1 ++ (callsOf e now c).1
      ++ (callsOfNamed e (now.declareAll (leftBehind e.source c)) after).1
  := by
  rw [callsOf_eq, hinside, hchildren, fst_callsOfNamed_append, hnow, callsOfNamed_cons, if_pos hc,
    snd_callsOf]
  simp only [List.append_assoc]

variable {t t' : Node}

/-- A change of a part that leaves the same behind does so in the whole, too. -/
theorem AgreeAround.leftBehind_eq (h : AgreeAround e s' t t' n n')
    (ht : leftBehind e.source t = leftBehind s' t') :
  leftBehind e.source n = leftBehind s' n'
  := by
  induction h with
  | here => apply ht
  | inside hself hchildren hchildren' hc hc' hbefore hafter _ ih =>
    rw [Java.leftBehind_eq, Java.leftBehind_eq, hself.opensScope_eq, hself.ownVariables_eq,
      hchildren, hchildren', leftBehindNamed_append, leftBehindNamed_append, leftBehindNamed,
      leftBehindNamed, leftBehindNamed_eq_of_reading hbefore, leftBehindNamed_eq_of_reading hafter,
      if_pos hc, if_pos hc', ih]

/-- The calls before a changed part do not change, nor do those after it if it leaves the same
behind. -/
theorem AgreeAround.exists_calls (h : AgreeAround e s' t t' n n') (frames : Frames) :
  ∃ before after before' after' now,
    (callsOf e frames n).1 = before ++ (callsOf e now t).1 ++ after
    ∧ (callsOf { e with source := s' } frames n').1
      = before' ++ (callsOf { e with source := s' } now t').1 ++ after'
    ∧ before.map CallSite.target = before'.map CallSite.target
    ∧ (leftBehind e.source t = leftBehind s' t' →
      after.map CallSite.target = after'.map CallSite.target)
  := by
  induction h generalizing frames with
  | here =>
    use [], [], [], [], frames
    simp
  | @inside n n' c c' left right left' right' hself hchildren hchildren' hc hc' hleft hright hc''
      ih =>
    let e' := { e with source := s' }
    -- Both walks reach the child around the changed part under the same variables.
    obtain ⟨inside, hinside⟩ : ∃ inside, e.enter frames n = inside := ⟨_, rfl⟩
    obtain ⟨now, hnow⟩ : ∃ now, inside.declareAll (leftBehindNamed e.source left) = now := ⟨_, rfl⟩
    have hinside' : e'.enter frames n' = inside := by
      rw [← hinside, enter, enter, hself.opensScope_eq, hself.ownVariables_eq]
    have hnow' : inside.declareAll (leftBehindNamed s' left') = now := by
      rw [← hnow, leftBehindNamed_eq_of_reading hleft]
    obtain ⟨before, after, before', after', there, hcalls, hcalls', hbefore, hafter⟩ := ih now
    use e.ownCall inside n ++ (callsOfNamed e inside left).1 ++ before,
      after ++ (callsOfNamed e (now.declareAll (leftBehind e.source c)) right).1,
      e'.ownCall inside n' ++ (callsOfNamed e' inside left').1 ++ before',
      after' ++ (callsOfNamed e' (now.declareAll (leftBehind s' c')) right').1, there
    refine ⟨?_, ?_, ?_, ?_⟩
    · rw [fst_callsOf_of_children hinside hnow hchildren hc, hcalls]
      simp only [List.append_assoc]
    · rw [fst_callsOf_of_children hinside' hnow' hchildren' hc', hcalls']
      simp only [List.append_assoc, e']
    · simp only [List.map_append, hself.targets_eq, hbefore,
        targets_callsOfNamed_eq_of_reading inside hleft, e']
    · intro ht
      rw [List.map_append, List.map_append, hafter ht, hc''.leftBehind_eq ht,
        targets_callsOfNamed_eq_of_reading _ hright]

/-! ### Calls around a change -/

/-- What opens a scope leaves nothing behind, and after it every name means what it meant before. -/
theorem snd_callsOf_of_opensScope (h : opensScope n) (e : Surroundings) (frames : Frames) :
  leftBehind e.source n = [] ∧ (callsOf e frames n).2 = frames
  := by
  have hnil : leftBehind e.source n = [] := by rw [leftBehind_eq, if_pos h]
  use hnil
  rw [snd_callsOf, hnil]
  rfl

/-- Of two method bodies that agree except for what stands at one place, the calls before this place
have the same receivers, and so have those after it if the same variables are left behind.  That is
so whatever is declared in it if it opens a scope. -/
theorem receivers_around_change (e : Surroundings) (s' : Source) (locals : List (String × String))
    {t t' body body' : Node} (h : AgreeAround e s' t t' body body') :
  let e' := { e with source := s' }
  let frames := Frames.start.declareAll locals
  ∃ before after before' after' now,
    collectCalls e frames body = before ++ (callsOf e now t).1 ++ after
    ∧ collectCalls e' frames body' = before' ++ (callsOf e' now t').1 ++ after'
    ∧ before.map CallSite.target = before'.map CallSite.target
    ∧ (leftBehind e.source t = leftBehind s' t' →
      after.map CallSite.target = after'.map CallSite.target)
    ∧ (opensScope t → opensScope t' → after.map CallSite.target = after'.map CallSite.target)
    ∧ (opensScope t → (callsOf e now t).2 = now)
  := by
  intro e' frames
  have hframes : frames ≠ [] := declareAll_start_ne_nil locals
  obtain ⟨before, after, before', after', now, hcalls, hcalls', hbefore, hafter⟩ :=
    h.exists_calls frames
  rw [← collectCalls_eq e hframes] at hcalls
  rw [← collectCalls_eq _ hframes] at hcalls'
  use before, after, before', after', now, hcalls, hcalls', hbefore, hafter
  constructor
  · intro ht ht'
    apply hafter
    rw [(snd_callsOf_of_opensScope ht e now).1, (snd_callsOf_of_opensScope ht' e' now).1]
  · intro ht
    apply (snd_callsOf_of_opensScope ht e now).2

/-- A local type of the source `AxBx.f()` that declares a field `x` of the type `A`. -/
def shadowingType (declaration body : String) : Node :=
  shadowedNode declaration "" 0 2
    [shadowedNode body "body" 0 2
      [.mk { (shadowedLocal 0).label with kind := "field_declaration" } (shadowedLocal 0).children]]

/-- A method body that declares a local type and then calls `x.f()`. -/
def bodyWithType (declaration body : String) : Node :=
  shadowedNode "block" "body" 0 8 [shadowingType declaration body, shadowedCall]

/-- A class with a field `x` of the type `D`, in a source file. -/
def besideField (source : String) : Surroundings :=
  ⟨.ofBytes source.toUTF8, .empty, [⟨"T", none, [("x", "D")], []⟩]⟩

/-- Two method bodies agree around a local type if the field of this type is renamed. -/
theorem agreeAround_shadowingType (declaration body : String) :
  AgreeAround (besideField "AxBx.f()") (.ofBytes "AyBx.f()".toUTF8)
    (shadowingType declaration body) (shadowingType declaration body)
    (bodyWithType declaration body) (bodyWithType declaration body)
  := by
  have hchildren : (bodyWithType declaration body).children
      = [] ++ shadowingType declaration body :: [shadowedCall] := rfl
  have hself : SameItself (besideField "AxBx.f()") (.ofBytes "AyBx.f()".toUTF8)
      (bodyWithType declaration body) (bodyWithType declaration body) := by
    have hkind : (bodyWithType declaration body).kind = "block" := rfl
    constructor
    · rfl
    · simp [ownVariables, hkind]
    · intro frames
      simp [ownCall, hkind]
  have hcall : [shadowedCall].map (reading (besideField "AxBx.f()").source)
      = [shadowedCall].map (reading (.ofBytes "AyBx.f()".toUTF8)) := by
    have hsame : ∀ span ∈ [(3, 8), (3, 4), (5, 6)],
        (besideField "AxBx.f()").source.slice span.1 span.2
          = (Source.ofBytes "AyBx.f()".toUTF8).slice span.1 span.2 := by decide +kernel
    simp only [List.forall_mem_cons] at hsame
    obtain ⟨hwhole, hobject, hname, -⟩ := hsame
    simp only [shadowedCall, shadowedNode, List.map_cons, List.map_nil, reading, readings, hwhole,
      hobject, hname]
  have hnil : ([] : List Node).map (reading (besideField "AxBx.f()").source)
      = [].map (reading (.ofBytes "AyBx.f()".toUTF8)) := by
    rw [List.map_nil, List.map_nil]
  apply AgreeAround.inside hself hchildren hchildren rfl rfl hnil hcall AgreeAround.here

/-- In a class the renamed field is gone when the method body goes on. -/
theorem receivers_around_change_of_class :
  let e := besideField "AxBx.f()"
  let s' := Source.ofBytes "AyBx.f()".toUTF8
  let e' := { e with source := s' }
  let frames := Frames.start.declareAll []
  let t := shadowingType "class_declaration" "class_body"
  let body := bodyWithType "class_declaration" "class_body"
  AgreeAround e s' t t body body ∧ ∃ before after before' after' now,
    collectCalls e frames body = before ++ (callsOf e now t).1 ++ after
    ∧ collectCalls e' frames body = before' ++ (callsOf e' now t).1 ++ after'
    ∧ before.map CallSite.target = before'.map CallSite.target
    ∧ after.map CallSite.target = after'.map CallSite.target
  := by
  intro e s' e' frames t body
  have h := agreeAround_shadowingType "class_declaration" "class_body"
  obtain ⟨before, after, before', after', now, hcalls, hcalls', hbefore, hafter, -⟩ :=
    receivers_around_change e s' [] h
  use h, before, after, before', after', now, hcalls, hcalls', hbefore
  apply hafter
  decide +kernel

/-- The local interface of the body `{ interface L { void q(Bar f); } f.a(); }`. -/
def localInterface : Node :=
  shadowedNode "interface_declaration" "" 2 32
    [.mk ⟨"interface", "", 2, 11, false, false⟩ [], shadowedNode "identifier" "name" 12 13 [],
      shadowedNode "interface_body" "body" 14 32
        [shadowedNode "method_declaration" "" 16 30
          [shadowedNode "void_type" "type" 16 20 [], shadowedNode "identifier" "name" 21 22 [],
            shadowedNode "formal_parameters" "parameters" 22 29
              [shadowedNode "formal_parameter" "" 23 28
                [shadowedNode "type_identifier" "type" 23 26 [],
                  shadowedNode "identifier" "name" 27 28 []]]]]]

/-- The call after the local interface. -/
def callAfterInterface : Node :=
  shadowedNode "expression_statement" "" 33 39
    [shadowedNode "method_invocation" "" 33 38
      [shadowedNode "identifier" "object" 33 34 [], shadowedNode "identifier" "name" 35 36 [],
        shadowedNode "argument_list" "arguments" 36 38 []]]

/-- The body with the local interface and the call after it. -/
def bodyWithInterface : Node :=
  shadowedNode "block" "body" 0 41 [localInterface, callAfterInterface]

/-- The body with a name for the parameter of the method of the interface. -/
def interfaceSource (parameter : String) : Source :=
  .ofBytes ("\x7b interface L \x7b void q(Bar " ++ parameter ++ "); \x7d f.a(); \x7d").toUTF8

/-- A class with a field `f`, in the source of the body. -/
def besideInterface (parameter : String) : Surroundings :=
  ⟨interfaceSource parameter, .empty, [⟨"A", none, [("f", "Fld")], ["m"]⟩]⟩

/-- The body agrees with itself around the interface if the parameter is renamed. -/
theorem agreeAround_localInterface :
  AgreeAround (besideInterface "f") (interfaceSource "g") localInterface localInterface
    bodyWithInterface bodyWithInterface
  := by
  have hchildren : bodyWithInterface.children = [] ++ localInterface :: [callAfterInterface] := rfl
  have hself : SameItself (besideInterface "f") (interfaceSource "g") bodyWithInterface
      bodyWithInterface := by
    have hkind : bodyWithInterface.kind = "block" := rfl
    constructor
    · rfl
    · simp [ownVariables, hkind]
    · intro frames
      simp [ownCall, hkind]
  have hcall : [callAfterInterface].map (reading (besideInterface "f").source)
      = [callAfterInterface].map (reading (interfaceSource "g")) := by
    have hsame : ∀ span ∈ [(33, 39), (33, 38), (33, 34), (35, 36), (36, 38)],
        (besideInterface "f").source.slice span.1 span.2
          = (interfaceSource "g").slice span.1 span.2 := by decide +kernel
    simp only [List.forall_mem_cons] at hsame
    obtain ⟨hstatement, hwhole, hobject, hname, harguments, -⟩ := hsame
    simp only [callAfterInterface, shadowedNode, List.map_cons, List.map_nil, reading, readings,
      hstatement, hwhole, hobject, hname, harguments]
  have hnil : ([] : List Node).map (reading (besideInterface "f").source)
      = [].map (reading (interfaceSource "g")) := by
    rw [List.map_nil, List.map_nil]
  apply AgreeAround.inside hself hchildren hchildren rfl rfl hnil hcall AgreeAround.here

/-- The parameters of the methods of a local interface go on to hide the fields of the class around,
so that the receiver of a call after it depends on their names. -/
theorem not_forall_receivers_around_type :
  ¬ ∀ (e : Surroundings) (s' : Source) (locals : List (String × String)) (t t' body body' : Node),
    declaresType t → declaresType t' → AgreeAround e s' t t' body body' →
        ∃ before after before' after' now,
          collectCalls e (Frames.start.declareAll locals) body
            = before ++ (callsOf e now t).1 ++ after
          ∧ collectCalls { e with source := s' } (Frames.start.declareAll locals) body'
            = before' ++ (callsOf { e with source := s' } now t').1 ++ after'
          ∧ before.map CallSite.target = before'.map CallSite.target
          ∧ after.map CallSite.target = after'.map CallSite.target
  := by
  intro hall
  obtain ⟨before, after, before', after', now, hcalls, hcalls', hbefore, hafter⟩ :=
    hall _ _ [] _ _ _ _ (by decide) (by decide) agreeAround_localInterface
  -- The interface makes no calls itself, so that all calls are before or after it.
  have hnone (e : Surroundings) : (callsOf e now localInterface).1 = [] := by
    simp [localInterface, shadowedNode, callsOf, callsOfNamed, ownCall, kind, label]
  have htargets : (before ++ after).map CallSite.target
      = (before' ++ after').map CallSite.target := by
    rw [List.map_append, List.map_append, hbefore, hafter]
  rw [hnone, List.append_nil] at hcalls hcalls'
  rw [← hcalls, ← hcalls'] at htargets
  revert htargets
  decide +kernel

end Cohesion.Java
