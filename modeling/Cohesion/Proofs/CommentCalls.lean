import Cohesion.Proofs.Comments
import Cohesion.Proofs.ScopeEnds
import Mathlib.Data.List.Forall2

/-!
# Calls without comments

A tree in a method body makes the same calls without comments, apart from their receivers,
`map_callsOf_withoutComments`.  The receivers agree, too, if no comment is read as a type,
`callsOf_withoutComments`: the local variables of the two trees differ only in comments among the
parameters of lambda expressions, `Frames.AgreeApartFrom`, which no identifier names.
-/

namespace Cohesion

/-- A call without its receiver. -/
def CallSite.withoutReceiver (call : CallSite) : CallSite :=
  { call with receiver := "" }

/-- A method whose calls have no receivers. -/
def MethodFacts.withoutReceivers (method : MethodFacts) : MethodFacts :=
  { method with calls := method.calls.map CallSite.withoutReceiver }

namespace Java

open Node Surroundings

/-! ### Frames that differ in hidden names -/

namespace Frames

/-- Frames in which all names but hidden ones have the same types. -/
def AgreeApartFrom (hidden : String → Prop) : Frames → Frames → Prop :=
  List.Forall₂ fun frame frame' => ∀ x, ¬ hidden x → lookUp? frame x = lookUp? frame' x

variable {hidden : String → Prop} {frames frames' : Frames}

theorem AgreeApartFrom.refl (frames : Frames) :
  AgreeApartFrom hidden frames frames
  := by
  apply List.forall₂_same.mpr
  intro _ _ _ _
  rfl

/-- Frames that agree still do in a new innermost frame. -/
theorem AgreeApartFrom.push (h : AgreeApartFrom hidden frames frames') :
  AgreeApartFrom hidden frames.push frames'.push
  := List.Forall₂.cons (fun _ _ => rfl) h

/-- Frames that agree still do when the innermost frame is left. -/
theorem AgreeApartFrom.tail (h : AgreeApartFrom hidden frames frames') :
  AgreeApartFrom hidden frames.tail frames'.tail
  := by
  cases h with
  | nil => apply List.Forall₂.nil
  | cons _ h => exact h

theorem lookUp?_cons {α : Type} (name x : String) (a : α) (entries : List (String × α)) :
  lookUp? ((name, a) :: entries) x = if name = x then some a else lookUp? entries x
  := by
  rw [lookUp?, List.find?_cons]
  by_cases h : name = x <;> simp [h, lookUp?]

/-- Frames that agree still do when both declare the same variable. -/
theorem AgreeApartFrom.declare (h : AgreeApartFrom hidden frames frames') (name type : String) :
  AgreeApartFrom hidden (frames.declare name type) (frames'.declare name type)
  := by
  cases h with
  | nil => apply List.Forall₂.nil
  | cons hframe h =>
    apply List.Forall₂.cons _ h
    intro x hx
    rw [lookUp?_cons, lookUp?_cons, hframe x hx]

/-- A hidden name declared on one side leaves the agreement as it was. -/
theorem AgreeApartFrom.declare_hidden (h : AgreeApartFrom hidden frames frames') {name : String}
    (hname : hidden name) (type : String) :
  AgreeApartFrom hidden frames (frames'.declare name type)
  := by
  cases h with
  | nil => apply List.Forall₂.nil
  | cons hframe h =>
    apply List.Forall₂.cons _ h
    intro x hx
    rw [lookUp?_cons, if_neg (ne_of_mem_of_not_mem (s := {y | hidden y}) hname hx), hframe x hx]

/-- Frames that agree still do when both declare the same variables. -/
theorem AgreeApartFrom.declareAll (h : AgreeApartFrom hidden frames frames')
    (locals : List (String × String)) :
  AgreeApartFrom hidden (frames.declareAll locals) (frames'.declareAll locals)
  := by
  induction locals generalizing frames frames' with
  | nil => exact h
  | cons v locals ih =>
    apply ih
    apply h.declare

/-- The type of a name that is not hidden. -/
theorem AgreeApartFrom.type?_eq (h : AgreeApartFrom hidden frames frames') {x : String}
    (hx : ¬ hidden x) :
  frames.type? x = frames'.type? x
  := by
  induction h with
  | nil => rfl
  | cons hframe _ ih =>
    rw [type?, type?] at ih
    rw [type?, type?, List.findSome?_cons, List.findSome?_cons, hframe x hx, ih]

end Frames

open Frames

variable {e e' : Surroundings} {s : Source} {hidden : String → Prop} {frames frames' : Frames}
  {n : Node}

/-! ### Calls -/

/-- The comments among the parameters of a lambda expression are hidden. -/
theorem agreeApartFrom_lambdaVariables (h : n.Everywhere CommentIsLeaf)
    (hclear : n.Everywhere (IsClear s hidden)) (hframes : AgreeApartFrom hidden frames frames') :
  AgreeApartFrom hidden (frames.declareAll (lambdaVariables s n.withoutComments))
    (frames'.declareAll (lambdaVariables s n))
  := by
  rw [lambdaVariables, lambdaVariables, child?_withoutComments h (by decide)]
  cases hparameters : n.child? "parameters" with
  | none => exact hframes
  | some parameters =>
    have hp := (hclear.of_child? hparameters).here
    simp only [Option.map_some, kind_withoutComments, text_withoutComments]
    split
    · apply hframes.declareAll
    · rename_i hkind
      have hhidden := hp.parameters hkind
      rw [namedChildren_withoutComments]
      generalize parameters.namedChildren = names at hhidden
      induction names generalizing frames frames' with
      | nil => exact hframes
      | cons name names ih =>
        have hrest := fun c hc => hhidden c (List.mem_cons_of_mem name hc)
        by_cases hcomment : name.isComment
        · rw [List.filter_cons_of_neg (by simpa using hcomment)]
          apply ih (hframes.declare_hidden (hhidden name List.mem_cons_self hcomment) _) hrest
        · rw [List.filter_cons_of_pos (by simpa using hcomment), List.map_cons, List.map_cons,
            text_withoutComments]
          apply ih (hframes.declare _ _) hrest
    · exact hframes

/-- Frames that agree still do after a node is entered with and without its comments. -/
theorem agreeApartFrom_enter (h : n.Everywhere CommentIsLeaf)
    (hclear : n.Everywhere (IsClear e.source hidden))
    (hframes : AgreeApartFrom hidden frames frames') :
  AgreeApartFrom hidden (e.enter frames n.withoutComments) (e.enter frames' n)
  := by
  rw [enter, enter, opensScope, kind_withoutComments, ← opensScope]
  have hinside : AgreeApartFrom hidden (if opensScope n then frames.push else frames)
      (if opensScope n then frames'.push else frames') := by
    split
    · apply hframes.push
    · exact hframes
  generalize (if opensScope n then frames.push else frames) = inside at hinside
  generalize (if opensScope n then frames'.push else frames') = inside' at hinside
  rw [ownVariables, ownVariables, kind_withoutComments,
    declaredVariables_withoutComments h hclear, declaredVariable_withoutComments h hclear]
  split
  · apply hinside.declareAll
  · apply hinside.declareAll
  · apply hinside.declareAll
  · apply hinside.declareAll
  · apply hinside.declareAll
  · apply hinside.declareAll
  · apply agreeApartFrom_lambdaVariables h hclear hinside
  · exact hinside

/-- The type of an accessed field does not depend on the comments. -/
theorem accessedType_withoutComments (h : n.Everywhere CommentIsLeaf) :
  e.accessedType n.withoutComments = e.accessedType n
  := by
  rw [accessedType, accessedType, child?_withoutComments h (by decide),
    child?_withoutComments h (by decide), Option.any_map]
  simp only [kind_withoutComments]
  cases n.child? "field" with
  | none => rfl
  | some field =>
    rw [Option.map_some]
    cases e.scopes with
    | nil => rfl
    | cons scope scopes => simp only [text_withoutComments]

/-- The receiver type of a call does not depend on the comments. -/
theorem receiverType_withoutComments (h : n.Everywhere CommentIsLeaf)
    (hclear : n.Everywhere (IsClear e.source hidden))
    (hframes : AgreeApartFrom hidden frames frames') :
  e.receiverType frames n.withoutComments = e.receiverType frames' n
  := by
  have hnamed : n.kind = "identifier" →
      e.namedType frames (n.text e.source) = e.namedType frames' (n.text e.source) := by
    intro hkind
    rw [namedType, namedType, hframes.type?_eq (hclear.here.identifier hkind)]
  rw [receiverType, receiverType, kind_withoutComments, text_withoutComments,
    accessedType_withoutComments h, expressionType?_withoutComments h hclear]
  split
  · rfl
  · rfl
  · rw [hnamed (by assumption)]
  · rfl
  · rfl

/-- The call a node makes itself does not depend on the comments. -/
theorem ownCall_withoutComments (h : n.Everywhere CommentIsLeaf)
    (hclear : n.Everywhere (IsClear e.source hidden))
    (hframes : AgreeApartFrom hidden frames frames') :
  e.ownCall frames n.withoutComments = e.ownCall frames' n
  := by
  rw [ownCall, ownCall, kind_withoutComments, call?, call?, child?_withoutComments h (by decide),
    child?_withoutComments h (by decide)]
  cases hobject : n.child? "object" with
  | none =>
    simp only [Option.map_none, Option.map_map, Function.comp_def, text_withoutComments,
      label_withoutComments]
  | some object =>
    simp only [Option.map_some, Option.map_map, Function.comp_def, text_withoutComments,
      label_withoutComments, receiverType_withoutComments (h.of_child? hobject)
        (hclear.of_child? hobject) hframes]

theorem opensScope_of_isComment (hcomment : n.isComment) :
  ¬ opensScope n
  := not_kind_of_isComment (p := scopeKinds.contains) (by decide) (by decide) hcomment

/-- A comment makes no call and declares nothing. -/
theorem callsOf_of_isComment (hcomment : n.isComment) (hleaf : n.children = []) :
  callsOf e frames n = ([], frames)
  := by
  have hopens := opensScope_of_isComment hcomment
  have hown : ownVariables e.source n = [] := by
    rw [isComment, Bool.or_eq_true, decide_eq_true_iff, decide_eq_true_iff] at hcomment
    obtain hkind | hkind := hcomment
    · simp [ownVariables, hkind]
    · simp [ownVariables, hkind]
  have hcall : ¬ n.kind = "method_invocation" := by
    simpa using not_kind_of_isComment (p := fun kind => kind = "method_invocation") (by decide)
      (by decide) hcomment
  rw [callsOf_eq, hleaf, callsOfNamed, ownCall, if_neg hcall, leave, if_neg hopens, enter,
    if_neg hopens, hown]
  rfl

mutual

/-- A tree makes the same calls without comments, and leaves frames behind that agree. -/
theorem callsOf_withoutComments :
  ∀ {n : Node} {frames frames' : Frames}, n.Everywhere CommentIsLeaf →
    n.Everywhere (IsClear e.source hidden) → AgreeApartFrom hidden frames frames' →
    (callsOf e frames n.withoutComments).1 = (callsOf e frames' n).1
      ∧ AgreeApartFrom hidden (callsOf e frames n.withoutComments).2 (callsOf e frames' n).2
  | .mk label children, frames, frames', h, hclear, hframes => by
    have hinside := agreeApartFrom_enter h hclear hframes
    obtain ⟨hcalls, hafter⟩ := callsOfNamed_withoutComments
      (fun c hc => h.of_mem_children hc) (fun c hc => hclear.of_mem_children hc) hinside
    rw [callsOf_eq, callsOf_eq, ownCall_withoutComments h hclear hinside, children_withoutComments,
      hcalls, leave, leave, opensScope, kind_withoutComments, ← opensScope]
    use rfl
    split
    · apply hafter.tail
    · exact hafter

/-- The calls of a list of nodes, and the frames after them, do not depend on the comments. -/
theorem callsOfNamed_withoutComments :
  ∀ {ns : List Node} {frames frames' : Frames}, (∀ n ∈ ns, n.Everywhere CommentIsLeaf) →
    (∀ n ∈ ns, n.Everywhere (IsClear e.source hidden)) → AgreeApartFrom hidden frames frames' →
    (callsOfNamed e frames (withoutCommentsAmong ns)).1 = (callsOfNamed e frames' ns).1
      ∧ AgreeApartFrom hidden (callsOfNamed e frames (withoutCommentsAmong ns)).2
        (callsOfNamed e frames' ns).2
  | [], _, _, _, _, hframes => ⟨rfl, hframes⟩
  | n :: ns, frames, frames', h, hclear, hframes => by
    rw [List.forall_mem_cons] at h hclear
    rw [withoutCommentsAmong, callsOfNamed_cons e frames']
    split
    · rename_i hcomment
      rw [callsOf_of_isComment hcomment (h.1.here hcomment).1, List.nil_append, ite_self]
      apply callsOfNamed_withoutComments h.2 hclear.2 hframes
    · rw [callsOfNamed_cons, label_withoutComments]
      split
      · obtain ⟨hcalls, hafter⟩ := callsOf_withoutComments h.1 hclear.1 hframes
        obtain ⟨hfurther, hlast⟩ := callsOfNamed_withoutComments h.2 hclear.2 hafter
        rw [hcalls, hfurther]
        use rfl
      · apply callsOfNamed_withoutComments h.2 hclear.2 hframes

end

/-- Up to its receiver, the call a node makes does not depend on comments or frames. -/
theorem map_ownCall_withoutComments (hsource : e.source = e'.source) (frames frames' : Frames)
    (h : n.Everywhere CommentIsLeaf) :
  (e.ownCall frames n.withoutComments).map CallSite.withoutReceiver
    = (e'.ownCall frames' n).map CallSite.withoutReceiver
  := by
  have hname := child?_name_withoutComments h
  rw [ownCall, ownCall, kind_withoutComments, call?, call?, hname]
  split
  · cases n.child? "name" with
    | none => rfl
    | some name =>
      simp only [Option.map_some, Option.toList_some, List.map_singleton,
        CallSite.withoutReceiver, text_withoutComments, label_withoutComments, hsource]
  · rfl

mutual

/-- A tree makes the same calls without comments, whatever their receivers are. -/
theorem map_callsOf_withoutComments (hsource : e.source = e'.source) (frames frames' : Frames) :
  ∀ {n : Node}, n.Everywhere CommentIsLeaf →
    (callsOf e frames n.withoutComments).1.map CallSite.withoutReceiver
      = (callsOf e' frames' n).1.map CallSite.withoutReceiver
  | .mk label children, h => by
    rw [callsOf_eq, callsOf_eq, List.map_append, List.map_append, children_withoutComments,
      map_ownCall_withoutComments hsource _ (e'.enter frames' (.mk label children)) h]
    congr 1
    apply map_callsOfNamed_withoutComments hsource
    intro c hc
    apply h.of_mem_children hc

/-- Up to the receivers, the calls of a list of nodes do not depend on comments or frames. -/
theorem map_callsOfNamed_withoutComments (hsource : e.source = e'.source)
    (frames frames' : Frames) :
  ∀ {ns : List Node}, (∀ n ∈ ns, n.Everywhere CommentIsLeaf) →
    (callsOfNamed e frames (withoutCommentsAmong ns)).1.map CallSite.withoutReceiver
      = (callsOfNamed e' frames' ns).1.map CallSite.withoutReceiver
  | [], _ => rfl
  | n :: ns, h => by
    rw [List.forall_mem_cons] at h
    rw [withoutCommentsAmong, callsOfNamed_cons e' frames']
    split
    · rename_i hcomment
      rw [callsOf_of_isComment hcomment (h.1.here hcomment).1, List.nil_append, ite_self]
      apply map_callsOfNamed_withoutComments hsource _ _ h.2
    · rw [callsOfNamed_cons, label_withoutComments]
      split
      · rw [List.map_append, List.map_append,
          map_callsOf_withoutComments hsource frames frames' h.1,
          map_callsOfNamed_withoutComments hsource _ (callsOf e' frames' n).2 h.2]
      · apply map_callsOfNamed_withoutComments hsource _ _ h.2

end

/-! ### Methods -/

/-- The lines of a body are counted with its comments, so taking them out of the tree changes none. -/
theorem map_lineCount_withoutComments (h : n.Everywhere CommentIsLeaf) :
  (n.withoutComments.child? "body").map (lineCount s) = (n.child? "body").map (lineCount s)
  := by
  rw [child?_withoutComments h (by decide), Option.map_map]
  congr 1
  funext body
  rw [Function.comp_apply, lineCount, label_withoutComments, lineCount]

/-- The formal parameters without comments are the formal parameters, each without its own. -/
theorem map_formalParameters_withoutComments (h : n.Everywhere CommentIsLeaf) :
  ((n.withoutComments.child? "parameters").map formalParameters).getD []
    = (((n.child? "parameters").map formalParameters).getD []).map withoutComments
  := by
  rw [child?_withoutComments h (by decide)]
  cases n.child? "parameters" with
  | none => rfl
  | some parameters => apply formalParameters_withoutComments

/-- The facts about a method are the same without comments if no comment is read as a type. -/
theorem methodFacts_withoutComments (h : n.Everywhere CommentIsLeaf)
    (hclear : n.Everywhere (IsClear e.source hidden)) :
  methodFacts e n.withoutComments = methodFacts e n
  := by
  have hlocals : ((((n.child? "parameters").map formalParameters).getD []).map
      withoutComments).flatMap (parameterVariable e.source)
        = (((n.child? "parameters").map formalParameters).getD []).flatMap
          (parameterVariable e.source) := by
    rw [List.flatMap_map]
    apply List.flatMap_congr
    intro p hp
    cases hparameters : n.child? "parameters" with
    | none => simp [hparameters] at hp
    | some parameters =>
      rw [hparameters] at hp
      have hmem := List.mem_of_mem_filter (show p ∈ formalParameters parameters from hp)
      apply parameterVariable_withoutComments
      · apply (h.of_child? hparameters).of_mem_namedChildren hmem
      · apply (hclear.of_child? hparameters).of_mem_namedChildren hmem
  have hcalls (locals : List (String × String)) :
      (n.withoutComments.child? "body").map (collectCalls e (Frames.start.declareAll locals))
        = (n.child? "body").map (collectCalls e (Frames.start.declareAll locals)) := by
    rw [child?_withoutComments h (by decide), Option.map_map]
    apply Option.map_congr
    intro body hbody
    have hframes := declareAll_start_ne_nil locals
    rw [Function.comp_apply, collectCalls_eq e hframes, collectCalls_eq e hframes]
    apply (callsOf_withoutComments (h.of_child? hbody) (hclear.of_child? hbody) (.refl _)).1
  have hname := child?_name_withoutComments h
  simp only [methodFacts, map_formalParameters_withoutComments h, hlocals, hcalls,
    map_lineCount_withoutComments h, hname, List.length_map, Option.map_map, Function.comp_def,
    text_withoutComments]

/-- The facts about a method are the same without comments apart from the receivers of calls. -/
theorem withoutReceivers_methodFacts_withoutComments (hsource : e.source = e'.source)
    (h : n.Everywhere CommentIsLeaf) :
  (methodFacts e n.withoutComments).withoutReceivers = (methodFacts e' n).withoutReceivers
  := by
  have hcalls (locals locals' : List (String × String)) :
      (((n.withoutComments.child? "body").map
          (collectCalls e (Frames.start.declareAll locals))).getD []).map CallSite.withoutReceiver
        = (((n.child? "body").map
          (collectCalls e' (Frames.start.declareAll locals'))).getD []).map
            CallSite.withoutReceiver := by
    rw [child?_withoutComments h (by decide)]
    cases hbody : n.child? "body" with
    | none => rfl
    | some body =>
      rw [Option.map_some, Option.map_some, Option.map_some, Option.getD_some, Option.getD_some,
        collectCalls_eq e (declareAll_start_ne_nil _),
        collectCalls_eq e' (declareAll_start_ne_nil _)]
      apply map_callsOf_withoutComments hsource _ _ (h.of_child? hbody)
  have hname := child?_name_withoutComments h
  simp only [methodFacts, MethodFacts.withoutReceivers, map_formalParameters_withoutComments h,
    hsource, hcalls _ ((((n.child? "parameters").map formalParameters).getD []).flatMap
      (parameterVariable e'.source)), map_lineCount_withoutComments h, hname, List.length_map,
    Option.map_map, Function.comp_def, text_withoutComments]

end Java

end Cohesion
