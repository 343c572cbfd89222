import Cohesion.Proofs.Members

/-!
# What the facts record

The declared types that the facts are about are those at the top of a source file and, from there on,
those among the members of a recorded type.  `Place.recorded` lists them, and `Place.allInvocations`
the calls in the bodies of their methods: `Place.mem_recorded`, `Place.mem_allInvocations`.  The parts
of all recorded types lie apart, `Place.pairwise_parts`, so that nothing is listed twice.
-/

namespace Cohesion.Java

namespace Place

variable {root : Node} {c d m p q : Place}

/-! ### What is recorded -/

/-- Whether a node has a name. -/
def hasName (n : Node) : Bool :=
  (n.child? "name").isSome

/-- Whether a node is a method invocation with a name. -/
def isInvocation (n : Node) : Bool :=
  n.kind = "method_invocation" && hasName n

/-- The type that is declared at a place is recorded: it has a name, and is at the top of the source
file or a member of a recorded type. -/
inductive IsRecorded (root : Node) : Place → Prop
  | top {d : Place} : d ∈ (ofRoot root).namedChildren → declaresType d.node → hasName d.node →
      IsRecorded root d
  | nested {d m : Place} : IsRecorded root d → d.IsMember m → declaresType m.node →
      hasName m.node → IsRecorded root m

/-- The place `body` is the body of a method or constructor that is a member of a recorded type. -/
def IsRecordedBody (root : Node) (body : Place) : Prop :=
  ∃ d m, IsRecorded root d ∧ d.IsMember m ∧ declaresMethod m.node ∧ m.child? "body" = some body

/-! ### Lists of what is recorded -/

/-- The methods and constructors among the members of a type. -/
def methods (d : Place) : List Place :=
  d.members.filter (declaresMethod ·.node)

/-- The invocations in the body of a method, in pre-order. -/
def invocations (m : Place) : List Place :=
  match m.child? "body" with
  | none => []
  | some body => body.preorder.filter (isInvocation ·.node)

/-- The type that is declared at a place and those nested in it, if it has a name. -/
def typesAt (d : Place) : List Place :=
  if hasName d.node then
    d :: d.members.attach.flatMap fun ⟨m, h⟩ =>
      have := size_lt_of_mem_members h
      if declaresType m.node then m.typesAt else []
  else []
termination_by d.node.size

/-- The types that are declared at some places and those nested in them. -/
def typesAmong (ps : List Place) : List Place :=
  (ps.filter (declaresType ·.node)).flatMap typesAt

/-- The recorded types of a source file. -/
def recorded (root : Node) : List Place :=
  typesAmong (ofRoot root).namedChildren

/-- The invocations in the bodies of all methods of recorded types. -/
def allInvocations (root : Node) : List Place :=
  (recorded root).flatMap fun d => d.methods.flatMap invocations

theorem flatMap_ite {α β : Type} (c : α → Bool) (f : α → List β) (xs : List α) :
  (xs.flatMap fun x => if c x then f x else []) = (xs.filter c).flatMap f
  := by
  induction xs with
  | nil => rfl
  | cons x xs ih =>
    rw [List.flatMap_cons, List.filter_cons, ih]
    split
    · rw [List.flatMap_cons]
    · rfl

/-- The types recorded at a declaration with a name are the declaration and those among its members. -/
theorem typesAt_eq (d : Place) :
  d.typesAt = if hasName d.node then d :: typesAmong d.members else []
  := by
  rw [typesAt, typesAmong, ← flatMap_ite]
  simp only [List.flatMap_subtype, List.unattach_attach]

/-- What holds of a declaration if it holds of its members holds of all of them. -/
@[elab_as_elim]
theorem members_induction {motive : Place → Prop} (d : Place)
    (step : ∀ d : Place, (∀ m ∈ d.members, motive m) → motive d) :
  motive d
  := by
  induction h : d.node.size using Nat.strong_induction_on generalizing d with
  | h n ih =>
    subst h
    apply step
    intro m hm
    apply ih _ (size_lt_of_mem_members hm) m rfl

/-! ### Membership -/

/-- A type is recorded among places when it is recorded at one of them that declares a type. -/
theorem mem_typesAmong {ps : List Place} :
  d ∈ typesAmong ps ↔ ∃ p ∈ ps, declaresType p.node ∧ d ∈ p.typesAt
  := by
  rw [typesAmong, List.mem_flatMap]
  simp only [List.mem_filter, and_assoc]

/-- A type recorded at a declaration is the declaration or is recorded among its members. -/
theorem mem_typesAt :
  d ∈ p.typesAt ↔ hasName p.node ∧ (d = p ∨ d ∈ typesAmong p.members)
  := by
  rw [typesAt_eq]
  split
  · simp only [*, List.mem_cons, true_and]
  · simp only [*, List.not_mem_nil, Bool.false_eq_true, false_and]

theorem mem_typesAt_self (h : hasName p.node) :
  p ∈ p.typesAt
  := mem_typesAt.mpr ⟨h, Or.inl rfl⟩

/-- The listed types are closed under nesting. -/
theorem mem_typesAt_of_isMember (hd : d ∈ p.typesAt) (hm : d.IsMember m)
    (htype : declaresType m.node) (hname : hasName m.node) :
  m ∈ p.typesAt
  := by
  induction p using members_induction with
  | step p ih =>
    obtain ⟨hp, hd⟩ := mem_typesAt.mp hd
    refine mem_typesAt.mpr ⟨hp, Or.inr ?_⟩
    rw [mem_typesAmong]
    obtain rfl | hd := hd
    · use m, mem_members.mpr hm, htype
      apply mem_typesAt_self hname
    · obtain ⟨y, hy, hytype, hd⟩ := mem_typesAmong.mp hd
      use y, hy, hytype
      apply ih y hy hd

/-- What is recorded at a recorded declaration is recorded in the file. -/
theorem isRecorded_of_mem_typesAt (hd : d ∈ p.typesAt) (hp : hasName p.node → IsRecorded root p) :
  IsRecorded root d
  := by
  induction p using members_induction with
  | step p ih =>
    obtain ⟨hname, rfl | hd⟩ := mem_typesAt.mp hd
    · apply hp hname
    · obtain ⟨m, hm, htype, hd⟩ := mem_typesAmong.mp hd
      apply ih m hm hd
      apply IsRecorded.nested (hp hname) (mem_members.mp hm) htype

/-- The list of recorded types holds exactly the declarations that are recorded. -/
theorem mem_recorded :
  d ∈ recorded root ↔ IsRecorded root d
  := by
  rw [recorded, mem_typesAmong]
  constructor
  · rintro ⟨p, hp, htype, hd⟩
    apply isRecorded_of_mem_typesAt hd
    apply IsRecorded.top hp htype
  · intro h
    induction h with
    | @top d hd htype hname =>
      use d, hd, htype
      apply mem_typesAt_self hname
    | nested _ hm htype hname ih =>
      obtain ⟨p, hp, hptype, hd⟩ := ih
      use p, hp, hptype
      apply mem_typesAt_of_isMember hd hm htype hname

/-- The methods of a type are exactly the members that declare a method. -/
theorem mem_methods :
  m ∈ d.methods ↔ d.IsMember m ∧ declaresMethod m.node
  := by
  rw [methods, List.mem_filter, mem_members]

/-- The invocations of a method are exactly those that its body reaches. -/
theorem mem_invocations :
  p ∈ m.invocations
    ↔ ∃ body, m.child? "body" = some body ∧ body.Reaches p ∧ isInvocation p.node
  := by
  rw [invocations]
  obtain _ | body := m.child? "body"
  · simp only [List.not_mem_nil, reduceCtorEq, false_and, exists_false]
  · simp only [Option.some.injEq, exists_eq_left', List.mem_filter, mem_preorder]

/-- The invocations of a file are exactly those that the body of a recorded method reaches. -/
theorem mem_allInvocations :
  p ∈ allInvocations root
    ↔ ∃ body, IsRecordedBody root body ∧ body.Reaches p ∧ isInvocation p.node
  := by
  simp only [allInvocations, List.mem_flatMap, mem_recorded, mem_methods, mem_invocations,
    IsRecordedBody]
  constructor
  · rintro ⟨d, hd, m, ⟨hm, hmethod⟩, body, hbody, hp⟩
    use body, ⟨d, m, hd, hm, hmethod, hbody⟩
  · rintro ⟨body, ⟨d, m, hd, hm, hmethod, hbody⟩, hp⟩
    use d, hd, m, ⟨hm, hmethod⟩, body

/-! ### Recorded parts are apart -/

/-- A type and its methods. -/
def parts (d : Place) : List Place :=
  d :: d.methods

/-- The place `q` does not contain `p`, and is not in `p` if that is a method. -/
def LeavesOut (p q : Place) : Prop :=
  ¬ q.Contains p ∧ (declaresMethod p.node → ¬ p.Contains q)

/-- A node that declares a type declares no method. -/
theorem declaresMethod_eq_false_of_declaresType {n : Node} (h : declaresType n) :
  declaresMethod n = false
  := by
  have hkinds : ∀ kind ∈ typeKinds, methodKinds.contains kind = false := by decide
  apply hkinds
  apply List.contains_iff_mem.mp h

theorem Apart.leavesOut (h : p.Apart q) :
  p.LeavesOut q
  := ⟨h.2, fun _ => h.1⟩

/-- A declaration contains every type recorded at it. -/
theorem contains_of_mem_typesAt (h : d ∈ p.typesAt) :
  p.Contains d
  := by
  induction p using members_induction with
  | step p ih =>
    obtain ⟨-, rfl | hd⟩ := mem_typesAt.mp h
    · apply Contains.refl
    · obtain ⟨m, hm, -, hd⟩ := mem_typesAmong.mp hd
      apply (mem_members.mp hm).above.contains.trans (ih m hm hd)

/-- A declaration contains its parts. -/
theorem contains_of_mem_parts (h : p ∈ d.parts) :
  d.Contains p
  := by
  obtain rfl | hp := List.mem_cons.mp h
  · apply Contains.refl
  · apply (mem_methods.mp hp).1.above.contains

/-- A declaration contains the parts of every type recorded at it. -/
theorem contains_of_mem_parts_typesAt (h : q ∈ p.typesAt.flatMap parts) :
  p.Contains q
  := by
  obtain ⟨d, hd, hq⟩ := List.mem_flatMap.mp h
  apply (contains_of_mem_typesAt hd).trans (contains_of_mem_parts hq)

/-- The parts of the nested types stand within the members that declare them. -/
theorem above_of_mem_parts_typesAmong (h : q ∈ (typesAmong p.members).flatMap parts) :
  ∃ m ∈ p.members, declaresType m.node ∧ m.Contains q
  := by
  obtain ⟨d, hd, hq⟩ := List.mem_flatMap.mp h
  obtain ⟨m, hm, htype, hd⟩ := mem_typesAmong.mp hd
  use m, hm, htype
  apply (contains_of_mem_typesAt hd).trans (contains_of_mem_parts hq)

/-- Parts of types at places that are apart leave each other out, when those at each place do. -/
theorem pairwise_parts_typesAmong {ps : List Place} (hps : ps.Pairwise Apart)
    (h : ∀ p ∈ ps, declaresType p.node → (p.typesAt.flatMap parts).Pairwise LeavesOut) :
  ((typesAmong ps).flatMap parts).Pairwise LeavesOut
  := by
  rw [typesAmong, List.flatMap_assoc]
  apply pairwise_flatMap (hps.filter _)
  · intro _ _ _ _ hapart hp hq
    apply (hapart.of_contains hp hq).leavesOut
  · intro p _ q hq
    apply contains_of_mem_parts_typesAt hq
  · intro p hp
    obtain ⟨hp, htype⟩ := List.mem_filter.mp hp
    apply h p hp htype

/-- The parts of the types recorded at a declaration leave each other out. -/
theorem pairwise_parts_typesAt (hp : declaresType p.node) :
  (p.typesAt.flatMap parts).Pairwise LeavesOut
  := by
  induction p using members_induction with
  | step p ih =>
    rw [typesAt_eq]
    split
    · rw [List.flatMap_cons, parts, List.cons_append, List.pairwise_cons, List.pairwise_append]
      refine ⟨?_, ?_, ?_, ?_⟩
      · -- All parts of the type are below it.
        intro q hq
        have habove : p.Above q := by
          obtain hq | hq := List.mem_append.mp hq
          · apply (mem_methods.mp hq).1.above
          · obtain ⟨m, hm, -, hq⟩ := above_of_mem_parts_typesAmong hq
            apply (mem_members.mp hm).above.of_contains hq
        use habove.not_contains
        rw [declaresMethod_eq_false_of_declaresType hp]
        rintro ⟨⟩
      · apply ((pairwise_members p).filter _).imp Apart.leavesOut
      · apply pairwise_parts_typesAmong (pairwise_members p) ih
      · -- A method is another member than the type of a nested part.
        intro m hm q hq
        obtain ⟨t, ht, htype, hq⟩ := above_of_mem_parts_typesAmong hq
        obtain ⟨hm, hmethod⟩ := List.mem_filter.mp hm
        have hne : m ≠ t := by
          rintro rfl
          rw [declaresMethod_eq_false_of_declaresType htype] at hmethod
          apply Bool.false_ne_true hmethod
        have hapart := (pairwise_members p).forall hm ht hne
        apply (hapart.of_contains (Contains.refl m) hq).leavesOut
    · apply List.Pairwise.nil

/-- The recorded types and their methods lie apart, except that a type contains its methods and the
types nested in it. -/
theorem pairwise_parts (root : Node) :
  ((recorded root).flatMap parts).Pairwise LeavesOut
  := by
  apply pairwise_parts_typesAmong (pairwise_apart_namedChildren _)
  intro p _ htype
  apply pairwise_parts_typesAt htype

/-! ### Nothing is recorded twice -/

/-- A recorded type comes before those nested in it. -/
theorem pairwise_recorded (root : Node) :
  (recorded root).Pairwise fun d d' => ¬ d'.Contains d
  := by
  obtain ⟨-, hpairs⟩ := List.pairwise_flatMap.mp (pairwise_parts root)
  apply hpairs.imp
  intro d d' h
  apply (h d List.mem_cons_self d' List.mem_cons_self).1

/-- No method of a recorded type is below another one. -/
theorem pairwise_methods (root : Node) :
  ((recorded root).flatMap methods).Pairwise Apart
  := by
  have hapart {m m' : Place} (h : m.LeavesOut m') (hm : declaresMethod m.node) : m.Apart m' :=
    ⟨h.2 hm, h.1⟩
  obtain ⟨hparts, hpairs⟩ := List.pairwise_flatMap.mp (pairwise_parts root)
  rw [List.pairwise_flatMap]
  constructor
  · intro d hd
    apply (List.pairwise_cons.mp (hparts d hd)).2.imp_of_mem
    intro m m' hm _ h
    apply hapart h (mem_methods.mp hm).2
  · apply hpairs.imp
    intro d d' h m hm m' hm'
    apply hapart _ (mem_methods.mp hm).2
    apply h m (List.mem_cons_of_mem d hm) m' (List.mem_cons_of_mem d' hm')

/-- A recorded declaration is that of a type. -/
theorem IsRecorded.declaresType (h : IsRecorded root d) :
  declaresType d.node
  := by
  obtain ⟨-, htype, -⟩ | ⟨-, -, htype, -⟩ := h
  · exact htype
  · exact htype

/-- No recorded type is in a method of a recorded type. -/
theorem not_contains_of_isRecorded (hd : IsRecorded root d) (hm : d.IsMember m)
    (hmethod : declaresMethod m.node) (hp : IsRecorded root p) :
  ¬ m.Contains p
  := by
  let R (x y : Place) : Prop :=
    declaresMethod x.node → Java.declaresType y.node → ¬ x.Contains y
  have hself : ∀ x ∈ (recorded root).flatMap parts, R x x := by
    intro x _ hx htype
    rw [declaresMethod_eq_false_of_declaresType htype] at hx
    apply absurd hx Bool.false_ne_true
  have hparts : ((recorded root).flatMap parts).Pairwise R := by
    apply (pairwise_parts root).imp
    intro x y h hx _
    apply h.2 hx
  have hflip : ((recorded root).flatMap parts).Pairwise (flip R) := by
    apply (pairwise_parts root).imp
    intro x y h _ _
    apply h.1
  have hmethods : m ∈ d.methods := mem_methods.mpr ⟨hm, hmethod⟩
  have hmem : m ∈ (recorded root).flatMap parts :=
    List.mem_flatMap.mpr ⟨d, mem_recorded.mpr hd, List.mem_cons_of_mem d hmethods⟩
  have hpmem : p ∈ (recorded root).flatMap parts :=
    List.mem_flatMap.mpr ⟨p, mem_recorded.mpr hp, List.mem_cons_self⟩
  apply hparts.forall_of_forall_of_flip hself hflip hmem hpmem hmethod hp.declaresType

/-- A method contains its invocations. -/
theorem contains_of_mem_invocations (h : p ∈ m.invocations) :
  m.Contains p
  := by
  obtain ⟨body, hbody, hp, -⟩ := mem_invocations.mp h
  apply (above_of_child? hbody).contains.trans hp.contains

/-- The invocations in the body of a method are listed in pre-order. -/
theorem pairwise_invocations (m : Place) :
  m.invocations.Pairwise fun p q => p.path < q.path
  := by
  rw [invocations]
  split
  · apply List.Pairwise.nil
  · apply (pairwise_preorder _).filter

/-- No invocation is listed twice. -/
theorem pairwise_allInvocations (root : Node) :
  (allInvocations root).Pairwise fun p q => p.path ≠ q.path
  := by
  rw [allInvocations, ← List.flatMap_assoc]
  apply pairwise_flatMap (pairwise_methods root)
  · intro _ _ p q hapart hp hq hpath
    apply (hapart.of_contains hp hq).1
    rw [Contains, hpath]
  · intro m _ p hp
    apply contains_of_mem_invocations hp
  · intro m _
    apply (pairwise_invocations m).imp
    intro p q hlt
    apply hlt.ne

end Place

end Cohesion.Java
