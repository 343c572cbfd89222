import Cohesion.Java.Calls
import Mathlib.Logic.Relation

/-!
# Local scopes

Doing the tasks of a method body one after the other finds the calls that the recursion on the tree
finds, under the same local variables: `runTasks_walk`.  What a tree leaves behind are the frames
before it, of which at most the innermost one has changed: `sameOuter_callsOf`.  At every stage there
is one frame beyond the first ones for each scope that is still to be closed, so that no scope ever
closes one of the first frames: `Stage.length_frames_of_reaches`.
-/

namespace Cohesion.Java

namespace Frames

variable {frames after last : Frames}

/-- Frames of which at most the innermost one differs. -/
def SameOuter (frames after : Frames) : Prop :=
  ∃ frame frame' outer, frames = frame :: outer ∧ after = frame' :: outer

theorem SameOuter.refl (h : frames ≠ []) :
  SameOuter frames frames
  := by
  obtain ⟨frame, outer, rfl⟩ := List.exists_cons_of_ne_nil h
  use frame, frame, outer

/-- Steps that each keep the outer frames keep them together. -/
theorem SameOuter.trans (h : SameOuter frames after) (h' : SameOuter after last) :
  SameOuter frames last
  := by
  obtain ⟨frame, frame', outer, rfl, rfl⟩ := h
  obtain ⟨_, frame'', _, ⟨⟩, rfl⟩ := h'
  use frame, frame'', outer

theorem SameOuter.ne_nil (h : SameOuter frames after) :
  after ≠ []
  := by
  obtain ⟨_, _, _, -, rfl⟩ := h
  apply List.cons_ne_nil

theorem SameOuter.tail_eq (h : SameOuter frames after) :
  after.tail = frames.tail
  := by
  obtain ⟨_, _, _, rfl, rfl⟩ := h
  rfl

/-- Keeping the outer frames keeps the number of frames. -/
theorem SameOuter.length_eq (h : SameOuter frames after) :
  after.length = frames.length
  := by
  obtain ⟨_, _, _, rfl, rfl⟩ := h
  rfl

/-- Declaring variables in the innermost frame keeps the outer ones. -/
theorem SameOuter.declareAll (h : SameOuter frames after) (locals : List (String × String)) :
  SameOuter frames (after.declareAll locals)
  := by
  induction locals generalizing after with
  | nil => exact h
  | cons v locals ih =>
    apply ih
    obtain ⟨frame, frame', outer, rfl, rfl⟩ := h
    use frame, (v.1, v.2) :: frame', outer, rfl
    rfl

theorem push_ne_nil (frames : Frames) :
  frames.push ≠ []
  := List.cons_ne_nil _ _

/-- Where there is a frame below the innermost one, the innermost one is closed. -/
theorem pop_eq_tail (h : 1 < frames.length) :
  frames.pop = frames.tail
  := by
  obtain _ | ⟨_, _ | ⟨_, _⟩⟩ := frames
  · simp at h
  · simp at h
  · rfl

end Frames

open Frames Surroundings

variable {e : Surroundings} {frames : Frames} {found : List CallSite} {tasks : List Task}

/-! ### The recursion step by step -/

/-- The calls of a node are its own, then those of its named children, in the frames it enters. -/
theorem callsOf_eq (e : Surroundings) (frames : Frames) (n : Node) :
  callsOf e frames n
    = (e.ownCall (e.enter frames n) n ++ (callsOfNamed e (e.enter frames n) n.children).1,
        leave (callsOfNamed e (e.enter frames n) n.children).2 n)
  := by
  cases n
  rfl

/-- The calls of a list of nodes are those of the first, if it is named, then those of the rest. -/
theorem callsOfNamed_cons (e : Surroundings) (frames : Frames) (n : Node) (ns : List Node) :
  callsOfNamed e frames (n :: ns)
    = if n.label.isNamed then
        ((callsOf e frames n).1 ++ (callsOfNamed e (callsOf e frames n).2 ns).1,
          (callsOfNamed e (callsOf e frames n).2 ns).2)
      else callsOfNamed e frames ns
  := rfl

/-- Inside a node are the frames that the node finds, and the one that it opens. -/
theorem sameOuter_enter (e : Surroundings) (h : frames ≠ []) (n : Node) :
  SameOuter (if opensScope n then frames.push else frames) (e.enter frames n)
  := by
  apply SameOuter.declareAll
  apply SameOuter.refl
  split
  · apply push_ne_nil
  · apply h

/-- Leaving a node gives back the frames around it, whatever was declared inside. -/
theorem sameOuter_leave {inside : Frames} {n : Node} (h : frames ≠ [])
    (hinside : SameOuter (if opensScope n then frames.push else frames) inside) :
  SameOuter frames (leave inside n)
  := by
  rw [leave]
  split at hinside
  · rw [if_pos (by assumption), hinside.tail_eq]
    apply SameOuter.refl h
  · rw [if_neg (by assumption)]
    exact hinside

mutual

/-- After a tree the frames are those before it, up to variables in the innermost one. -/
theorem sameOuter_callsOf (e : Surroundings) {frames : Frames} (h : frames ≠ []) :
  ∀ n : Node, SameOuter frames (callsOf e frames n).2
  | .mk label children => by
    have hinside := sameOuter_enter e h (.mk label children)
    rw [callsOf_eq]
    apply sameOuter_leave h
    apply hinside.trans (sameOuter_callsOfNamed e hinside.ne_nil children)

/-- The calls of a list of nodes keep the outer frames. -/
theorem sameOuter_callsOfNamed (e : Surroundings) {frames : Frames} (h : frames ≠ []) :
  ∀ ns : List Node, SameOuter frames (callsOfNamed e frames ns).2
  | [] => SameOuter.refl h
  | n :: ns => by
    rw [callsOfNamed_cons]
    split
    · have hn := sameOuter_callsOf e h n
      apply hn.trans (sameOuter_callsOfNamed e hn.ne_nil ns)
    · apply sameOuter_callsOfNamed e h ns

end

/-! ### The tasks step by step -/

/-- Closing the scope of a node whose children are done. -/
theorem runTasks_end {inside : Frames} {n : Node} (h : frames ≠ [])
    (hinside : SameOuter (if opensScope n then frames.push else frames) inside) :
  runTasks e found inside ((if opensScope n then [.close] else []) ++ tasks)
    = runTasks e found (leave inside n) tasks
  := by
  rw [leave]
  split at hinside
  · have hlength : 1 < inside.length := by
      rw [hinside.length_eq, Frames.push, List.length_cons]
      have := List.length_pos_iff.mpr h
      omega
    rw [if_pos (by assumption), if_pos (by assumption), List.singleton_append, runTasks,
      pop_eq_tail hlength]
  · rw [if_neg (by assumption), if_neg (by assumption), List.nil_append]

mutual

/-- Walking a tree finds its calls and leaves its frames to the tasks that follow. -/
theorem runTasks_walk (e : Surroundings) (found : List CallSite) {frames : Frames}
    (h : frames ≠ []) (tasks : List Task) :
  ∀ n : Node, runTasks e found frames (.walk n :: tasks)
    = runTasks e ((callsOf e frames n).1.reverse ++ found) (callsOf e frames n).2 tasks
  | .mk label children => by
    have hinside := sameOuter_enter e h (.mk label children)
    rw [runTasks, Task.below, List.append_assoc, Node.namedChildren,
      runTasks_walkAll e _ hinside.ne_nil,
      runTasks_end h (hinside.trans (sameOuter_callsOfNamed e hinside.ne_nil _)), callsOf_eq,
      List.reverse_append, List.append_assoc]

/-- Walking the trees of a list that are no keywords. -/
theorem runTasks_walkAll (e : Surroundings) (found : List CallSite) {frames : Frames}
    (h : frames ≠ []) (tasks : List Task) :
  ∀ ns : List Node, runTasks e found frames
      ((ns.filter (·.label.isNamed)).map .walk ++ tasks)
    = runTasks e ((callsOfNamed e frames ns).1.reverse ++ found) (callsOfNamed e frames ns).2 tasks
  | [] => rfl
  | n :: ns => by
    rw [callsOfNamed_cons, List.filter_cons]
    split
    · rw [List.map_cons, List.cons_append, runTasks_walk e found h _ n,
        runTasks_walkAll e _ (sameOuter_callsOf e h n).ne_nil tasks ns, List.reverse_append,
        List.append_assoc]
    · apply runTasks_walkAll e found h tasks ns

end

/-! ### Stages of the work -/

/-- Whether a task closes a scope. -/
def Task.closes : Task → Bool
  | .walk _ => false
  | .close => true

/-- A stage of the work on a method body: the calls that are found, the latest of which comes first,
the local variables, and what remains to be done. -/
structure Stage where
  found : List CallSite
  frames : Frames
  tasks : List Task

namespace Stage

/-- The stage before any work on a method body. -/
def start (frames : Frames) (body : Node) : Stage :=
  ⟨[], frames, [.walk body]⟩

/-- The stage after the next task, if one remains. -/
def next? (e : Surroundings) : Stage → Option Stage
  | ⟨_, _, []⟩ => none
  | ⟨found, frames, .close :: tasks⟩ => some ⟨found, frames.pop, tasks⟩
  | ⟨found, frames, .walk n :: tasks⟩ =>
    some ⟨(e.ownCall (e.enter frames n) n).reverse ++ found, e.enter frames n,
      Task.below n ++ tasks⟩

/-- The stage `t` is `s` or a later one. -/
def Reaches (e : Surroundings) : Stage → Stage → Prop :=
  Relation.ReflTransGen fun s t => s.next? e = some t

/-- The number of scopes that remain to be closed. -/
def openScopes (s : Stage) : Nat :=
  s.tasks.countP Task.closes

variable {s t : Stage}

/-- The stages end with what doing all tasks gives. -/
theorem reaches_end (e : Surroundings) (found : List CallSite) (frames : Frames)
    (tasks : List Task) :
  Reaches e ⟨found, frames, tasks⟩
    ⟨(runTasks e found frames tasks).1.reverse, (runTasks e found frames tasks).2, []⟩
  := by
  fun_induction runTasks e found frames tasks with
  | case1 found frames =>
    rw [List.reverse_reverse]
    apply Relation.ReflTransGen.refl
  | case2 found frames tasks ih => exact Relation.ReflTransGen.head rfl ih
  | case3 found frames n tasks inside ih => exact Relation.ReflTransGen.head rfl ih

/-- Of the tasks below a node one closes a scope, if the node opens one. -/
theorem countP_closes_below (n : Node) :
  (Task.below n).countP Task.closes = if opensScope n then 1 else 0
  := by
  have hwalks : (n.namedChildren.map Task.walk).countP Task.closes = 0 := by
    rw [List.countP_eq_zero]
    rintro _ h
    obtain ⟨c, -, rfl⟩ := List.mem_map.mp h
    apply Bool.false_ne_true
  rw [Task.below, List.countP_append, hwalks]
  split
  · rfl
  · rfl

/-- Entering a node adds a frame exactly when it opens a scope. -/
theorem length_enter (h : frames ≠ []) (n : Node) :
  (e.enter frames n).length = frames.length + if opensScope n then 1 else 0
  := by
  rw [(sameOuter_enter e h n).length_eq]
  split
  · rfl
  · rfl

/-- One task keeps the number of frames that no open scope accounts for. -/
theorem length_frames_of_next? {k : Nat} (hk : 0 < k) (h : s.frames.length = k + s.openScopes)
    (hnext : s.next? e = some t) :
  t.frames.length = k + t.openScopes
  := by
  obtain ⟨found, frames, _ | ⟨n | _, tasks⟩⟩ := s
  · cases hnext
  · cases hnext
    have hframes : frames ≠ [] := by
      apply List.ne_nil_of_length_pos
      rw [h]
      omega
    rw [openScopes, List.countP_append, countP_closes_below, length_enter hframes, h, openScopes,
      List.countP_cons_of_neg Bool.false_ne_true]
    omega
  · cases hnext
    rw [openScopes, List.countP_cons_of_pos rfl] at h
    change frames.pop.length = k + tasks.countP Task.closes
    change frames.length = _ at h
    rw [pop_eq_tail (by omega), List.length_tail]
    omega

/-- At every stage of the work on a method body there is one frame beyond the first ones for each
scope that remains to be closed. -/
theorem length_frames_of_reaches {body : Node} (hframes : frames ≠ [])
    (h : Reaches e (start frames body) s) :
  s.frames.length = frames.length + s.openScopes
  := by
  induction h with
  | refl => rfl
  | tail _ hnext ih =>
    apply length_frames_of_next? _ ih hnext
    apply List.length_pos_iff.mpr hframes

end Stage

/-! ### The calls of a method body -/

/-- The tasks of a body give its calls, from frames that are not empty. -/
theorem runTasks_body (e : Surroundings) {frames : Frames} (h : frames ≠ []) (body : Node) :
  runTasks e [] frames [.walk body] = callsOf e frames body
  := by
  rw [runTasks_walk e [] h [] body, runTasks, List.append_nil, List.reverse_reverse]

/-- The calls collected from a body are those of the recursion over its tree. -/
theorem collectCalls_eq (e : Surroundings) {frames : Frames} (h : frames ≠ []) (body : Node) :
  collectCalls e frames body = (callsOf e frames body).1
  := by
  rw [collectCalls, runTasks_body e h]

/-- The tasks of a method body find the calls of the recursion on the tree.  They leave all frames as
they were except for the innermost one, and close a frame only where another one is left. -/
theorem collectCalls_by_recursion (e : Surroundings) {frames : Frames} (h : frames ≠ [])
    (body : Node) :
  collectCalls e frames body = (callsOf e frames body).1
    ∧ (runTasks e [] frames [.walk body]).2 = (callsOf e frames body).2
    ∧ (runTasks e [] frames [.walk body]).2.length = frames.length
    ∧ (runTasks e [] frames [.walk body]).2.tail = frames.tail
    ∧ Stage.Reaches e (.start frames body)
      ⟨(collectCalls e frames body).reverse, (runTasks e [] frames [.walk body]).2, []⟩
    ∧ ∀ found now rest,
      Stage.Reaches e (.start frames body) ⟨found, now, .close :: rest⟩ → 1 < now.length
  := by
  have hrun := runTasks_body e h body
  have houter := sameOuter_callsOf e h body
  use collectCalls_eq e h body, congrArg Prod.snd hrun
  use by rw [hrun, houter.length_eq], by rw [hrun, houter.tail_eq]
  use Stage.reaches_end e [] frames [.walk body]
  intro found now rest hreaches
  have hlength := Stage.length_frames_of_reaches h hreaches
  have hframes := List.length_pos_iff.mpr h
  rw [Stage.openScopes, List.countP_cons_of_pos rfl] at hlength
  change now.length = _ at hlength
  omega

/-- A named node of the source `AxBx.f()`. -/
def shadowedNode (kind field : String) (start stop : Nat) (children : List Node) : Node :=
  .mk ⟨kind, field, start, stop, true, false⟩ children

/-- The declaration of a variable `x` whose type is at an offset of the source `AxBx.f()`. -/
def shadowedLocal (start : Nat) : Node :=
  shadowedNode "local_variable_declaration" "" start (start + 2)
    [shadowedNode "type_identifier" "type" start (start + 1) [],
      shadowedNode "variable_declarator" "declarator" (start + 1) (start + 2)
        [shadowedNode "identifier" "name" (start + 1) (start + 2) []]]

/-- The call `x.f()`. -/
def shadowedCall : Node :=
  shadowedNode "method_invocation" "" 3 8
    [shadowedNode "identifier" "object" 3 4 [], shadowedNode "identifier" "name" 5 6 []]

/-- A block with a variable `x`, and in it a block with another one; both blocks end with a call. -/
def shadowedBody : Node :=
  shadowedNode "block" "body" 0 8
    [shadowedLocal 0, shadowedNode "block" "" 2 8 [shadowedLocal 2, shadowedCall], shadowedCall]

/-- The variable of the inner block is gone when the outer block calls its own. -/
theorem collectCalls_by_recursion_shadowed :
  let e : Surroundings := ⟨.ofBytes "AxBx.f()".toUTF8, .empty, []⟩
  let frames : Frames := [[("y", "C")], [("x", "D")]]
  frames ≠ [] ∧ collectCalls e frames shadowedBody = [⟨"f", "B", 0⟩, ⟨"f", "A", 0⟩]
    ∧ collectCalls e frames shadowedBody = (callsOf e frames shadowedBody).1
    ∧ (runTasks e [] frames [.walk shadowedBody]).2.tail = [[("x", "D")]]
  := by
  intro e frames
  have h : frames ≠ [] := List.cons_ne_nil _ _
  obtain ⟨hcalls, -, -, htail, -⟩ := collectCalls_by_recursion e h shadowedBody
  use h, by decide +kernel, hcalls, htail

end Cohesion.Java
