import Cohesion.Java.Types
import Cohesion.Proofs.Places
import Mathlib.Data.List.Pairwise

/-!
# Members of a type

The members of a declared type with their places.  They are the named nodes in its body; of an enum
they are those in the parts of the body after the constants and in the bodies of the constants,
`Place.mem_members`.  No member is below another one: `Place.pairwise_members`.
-/

namespace Cohesion.Java

namespace Place

variable {d m : Place}

/-- The nodes that hold the members of a type, as `Java.memberContainers`. -/
def memberContainers (d : Place) : List Place :=
  match d.child? "body" with
  | none => []
  | some body =>
    if body.node.kind = "enum_body" then
      body.namedChildren.filter (·.node.kind = "enum_body_declarations")
    else [body]

/-- The bodies of the constants of an enum, as `Java.constantBodies`. -/
def constantBodies (d : Place) : List Place :=
  match d.child? "body" with
  | none => []
  | some body =>
    if body.node.kind = "enum_body" then
      (body.namedChildren.filter (·.node.kind = "enum_constant")).filterMap (·.child? "body")
    else []

/-- All members of a type, those in the bodies of the constants of an enum last. -/
def members (d : Place) : List Place :=
  (d.memberContainers ++ d.constantBodies).flatMap namedChildren

/-- The named children of `c` are members of the type that is declared at `d`. -/
inductive HoldsMembers (d : Place) : Place → Prop
  | body {body : Place} : d.child? "body" = some body → body.node.kind ≠ "enum_body" →
      HoldsMembers d body
  | declarations {body part : Place} : d.child? "body" = some body →
      body.node.kind = "enum_body" → part ∈ body.namedChildren →
      part.node.kind = "enum_body_declarations" → HoldsMembers d part
  | constant {body constant own : Place} : d.child? "body" = some body →
      body.node.kind = "enum_body" → constant ∈ body.namedChildren →
      constant.node.kind = "enum_constant" → constant.child? "body" = some own →
      HoldsMembers d own

/-- The place `m` is a member of the type that is declared at `d`. -/
def IsMember (d m : Place) : Prop :=
  ∃ c, d.HoldsMembers c ∧ m ∈ c.namedChildren

/-! ### Members without their places -/

theorem map_node_memberContainers (d : Place) :
  d.memberContainers.map node = Java.memberContainers d.node
  := by
  rw [Java.memberContainers, ← map_node_child?, memberContainers]
  obtain _ | body := d.child? "body"
  · rfl
  · change List.map node (if body.node.kind = "enum_body" then _ else _)
      = if body.node.kind = "enum_body" then _ else _
    split
    · rw [← map_node_namedChildren, List.filter_map]
      rfl
    · rfl

theorem map_node_constantBodies (d : Place) :
  d.constantBodies.map node = Java.constantBodies d.node
  := by
  rw [Java.constantBodies, ← map_node_child?, constantBodies]
  obtain _ | body := d.child? "body"
  · rfl
  · change List.map node (if body.node.kind = "enum_body" then _ else _)
      = if body.node.kind = "enum_body" then _ else _
    split
    · rw [← map_node_namedChildren, List.filter_map, List.filterMap_map, List.map_filterMap]
      simp only [Function.comp_def, map_node_child?]
    · rfl

/-- The nodes at the members of a declaration are the members of its node. -/
theorem map_node_members (d : Place) :
  d.members.map node = membersOf d.node ++ constantMembersOf d.node
  := by
  have hnamed (ps : List Place) :
      (ps.flatMap namedChildren).map node = (ps.map node).flatMap Node.namedChildren := by
    rw [List.map_flatMap, List.flatMap_map]
    simp only [map_node_namedChildren]
  rw [members, List.flatMap_append, List.map_append, hnamed, hnamed, map_node_memberContainers,
    map_node_constantBodies, membersOf, constantMembersOf]

/-- A member is smaller than its declaration, so that recursions into members end. -/
theorem size_lt_of_mem_members (h : m ∈ d.members) :
  m.node.size < d.node.size
  := by
  apply Java.size_lt_of_mem_members
  rw [← map_node_members]
  apply List.mem_map_of_mem h

/-! ### Membership -/

/-- The members stand in the body, and for an enum in the declarations part of its body. -/
theorem mem_memberContainers {c : Place} :
  c ∈ d.memberContainers ↔ ∃ body, d.child? "body" = some body
    ∧ if body.node.kind = "enum_body" then
        c ∈ body.namedChildren ∧ c.node.kind = "enum_body_declarations"
      else c = body
  := by
  rw [memberContainers]
  obtain _ | body := d.child? "body"
  · simp only [List.not_mem_nil, reduceCtorEq, false_and, exists_false]
  · simp only [Option.some.injEq, exists_eq_left']
    split
    · rw [List.mem_filter, decide_eq_true_iff]
    · apply List.mem_singleton

/-- The bodies of constants are those that the constants of an enum body have. -/
theorem mem_constantBodies {c : Place} :
  c ∈ d.constantBodies ↔ ∃ body, d.child? "body" = some body ∧ body.node.kind = "enum_body"
    ∧ ∃ constant ∈ body.namedChildren, constant.node.kind = "enum_constant"
      ∧ constant.child? "body" = some c
  := by
  rw [constantBodies]
  obtain _ | body := d.child? "body"
  · simp only [List.not_mem_nil, reduceCtorEq, false_and, exists_false]
  · simp only [Option.some.injEq, exists_eq_left']
    split
    · simp only [*, List.mem_filterMap, List.mem_filter, decide_eq_true_iff, and_assoc, true_and]
    · simp only [*, List.not_mem_nil, false_and]

/-- The bodies searched for members are exactly those that hold members. -/
theorem mem_containers {c : Place} :
  c ∈ d.memberContainers ++ d.constantBodies ↔ d.HoldsMembers c
  := by
  rw [List.mem_append, mem_memberContainers, mem_constantBodies]
  constructor
  · rintro (⟨body, hbody, hc⟩ | ⟨body, hbody, hkind, constant, hconstant, hconstantKind, hown⟩)
    · split at hc
      · apply HoldsMembers.declarations hbody (by assumption) hc.1 hc.2
      · rw [hc]
        apply HoldsMembers.body hbody (by assumption)
    · apply HoldsMembers.constant hbody hkind hconstant hconstantKind hown
  · rintro (⟨hbody, hkind⟩ | ⟨hbody, hkind, hpart, hpartKind⟩
      | ⟨hbody, hkind, hconstant, hconstantKind, hown⟩)
    · left
      use c, hbody
      rw [if_neg hkind]
    · left
      refine ⟨_, hbody, ?_⟩
      rw [if_pos hkind]
      use hpart
    · right
      refine ⟨_, hbody, hkind, _, hconstant, hconstantKind, hown⟩

/-- The list of members holds exactly the members of the declaration. -/
theorem mem_members :
  m ∈ d.members ↔ d.IsMember m
  := by
  rw [members, List.mem_flatMap, IsMember]
  simp only [mem_containers]

/-- A declaration is above the bodies that hold its members. -/
theorem HoldsMembers.above {c : Place} (h : d.HoldsMembers c) :
  d.Above c
  := by
  obtain ⟨hbody, -⟩ | ⟨hbody, -, hpart, -⟩ | ⟨hbody, -, hconstant, -, hown⟩ := h
  · apply above_of_child? hbody
  · apply (above_of_child? hbody).of_contains (above_of_mem_namedChildren hpart).contains
  · apply (above_of_child? hbody).of_contains
    apply (above_of_mem_namedChildren hconstant).contains.trans (above_of_child? hown).contains

/-- A declaration is above its members. -/
theorem IsMember.above (h : d.IsMember m) :
  d.Above m
  := by
  obtain ⟨c, hc, hm⟩ := h
  apply hc.above.of_contains (above_of_mem_namedChildren hm).contains

/-! ### Members are apart -/

theorem pairwise_memberContainers (d : Place) :
  d.memberContainers.Pairwise Apart
  := by
  rw [memberContainers]
  split
  · apply List.Pairwise.nil
  · split
    · apply (pairwise_apart_namedChildren _).filter
    · apply List.pairwise_singleton

theorem pairwise_constantBodies (d : Place) :
  d.constantBodies.Pairwise Apart
  := by
  rw [constantBodies]
  split
  · apply List.Pairwise.nil
  · split
    · apply List.Pairwise.filterMap _ _ ((pairwise_apart_namedChildren _).filter _)
      intro p q hpq _ hp _ hq
      apply hpq.of_contains (above_of_child? hp).contains (above_of_child? hq).contains
    · apply List.Pairwise.nil

/-- The parts of the body of an enum after the constants are apart from the constants. -/
theorem apart_of_mem_containers {p q : Place} (hp : p ∈ d.memberContainers)
    (hq : q ∈ d.constantBodies) :
  p.Apart q
  := by
  obtain ⟨body, hbody, hp⟩ := mem_memberContainers.mp hp
  obtain ⟨body', hbody', hkind, constant, hconstant, hconstantKind, hown⟩ :=
    mem_constantBodies.mp hq
  obtain rfl : body' = body := Option.some.inj (hbody'.symm.trans hbody)
  rw [if_pos hkind] at hp
  have hne : p ≠ constant := by
    rintro rfl
    simp [hp.2] at hconstantKind
  have hapart := (pairwise_apart_namedChildren body').forall hp.1 hconstant hne
  apply hapart.of_contains (Contains.refl p) (above_of_child? hown).contains

/-- No member of a type is below another one. -/
theorem pairwise_members (d : Place) :
  d.members.Pairwise Apart
  := by
  apply pairwise_flatMap (R := Apart)
  · rw [List.pairwise_append]
    use pairwise_memberContainers d, pairwise_constantBodies d
    intro p hp q hq
    apply apart_of_mem_containers hp hq
  · intro _ _ _ _ h hp hq
    apply h.of_contains hp hq
  · intro c _ m hm
    apply (above_of_mem_namedChildren hm).contains
  · intro c _
    apply pairwise_apart_namedChildren

end Place

end Cohesion.Java
