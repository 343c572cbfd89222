import Cohesion.Proofs.Extraction
import Cohesion.Proofs.ScopeEnds
import Mathlib.Data.List.Nodup

/-!
# Scopes that tell the same

The scope of a type is only asked for the types of fields and whether there is a method of some
name.  Two scopes with the same answers are `Equivalent`, and so are those of one type with its
fields in another order if their names are different, `lookUp?_eq_of_perm`.  Under equivalent scopes
the calls of a method body and the facts about a type are the same: `callsOf_eq_of_equivalent`,
`typesOf_eq_of_equivalent`.
-/

namespace Cohesion.Java

open Surroundings

/-! ### Look-ups -/

section

variable {α : Type} {xs ys : List (String × α)} {x : String} {a : α}

/-- With different names, what a look-up finds are the entries. -/
theorem lookUp?_eq_some_iff (h : (xs.map Prod.fst).Nodup) :
  lookUp? xs x = some a ↔ (x, a) ∈ xs
  := by
  rw [lookUp?, Option.map_eq_some_iff]
  constructor
  · rintro ⟨⟨y, b⟩, hfind, rfl⟩
    obtain rfl : y = x := by simpa using List.find?_some hfind
    apply List.mem_of_find?_eq_some hfind
  · intro hmem
    obtain ⟨entry, hfind⟩ : ∃ entry, xs.find? (·.1 = x) = some entry := by
      rw [← Option.isSome_iff_exists, List.find?_isSome]
      use (x, a), hmem
      apply decide_eq_true rfl
    have hx : entry.1 = x := by simpa using List.find?_some hfind
    use entry, hfind
    rw [List.inj_on_of_nodup_map h (List.mem_of_find?_eq_some hfind) hmem hx]

/-- With different names, the order of entries does not count. -/
theorem lookUp?_eq_of_perm (hperm : xs.Perm ys) (h : (xs.map Prod.fst).Nodup) :
  lookUp? xs x = lookUp? ys x
  := by
  have h' : (ys.map Prod.fst).Nodup := (hperm.map Prod.fst).nodup_iff.mp h
  apply Option.ext
  intro a
  rw [lookUp?_eq_some_iff h, lookUp?_eq_some_iff h', hperm.mem_iff]

end

/-! ### Equivalent scopes -/

/-- Two scopes give the same answers. -/
structure TypeScope.Equivalent (t t' : TypeScope) : Prop where
  name_eq : t.name = t'.name
  superclass_eq : t.superclass = t'.superclass
  lookUp?_eq : ∀ x, lookUp? t.fields x = lookUp? t'.fields x
  mem_methods_iff : ∀ m, m ∈ t.methods ↔ m ∈ t'.methods

theorem TypeScope.Equivalent.refl (t : TypeScope) :
  t.Equivalent t
  := ⟨rfl, rfl, fun _ => rfl, fun _ => Iff.rfl⟩

/-- The scopes of two lists are equivalent one by one. -/
def EquivalentScopes : List TypeScope → List TypeScope → Prop :=
  List.Forall₂ TypeScope.Equivalent

section

variable {scopes scopes' : List TypeScope} (h : EquivalentScopes scopes scopes')
include h

/-- Equivalent scopes name the same enclosing type. -/
theorem enclosing_eq_of_equivalent :
  TypeScope.enclosing scopes = TypeScope.enclosing scopes'
  := by
  cases h with
  | nil => rfl
  | cons ht _ => exact ht.name_eq

/-- Equivalent scopes name the same parent type. -/
theorem parent_eq_of_equivalent :
  TypeScope.parent scopes = TypeScope.parent scopes'
  := by
  cases h with
  | nil => rfl
  | cons ht _ => rw [TypeScope.parent, TypeScope.parent, ht.name_eq, ht.superclass_eq]

/-- Equivalent scopes give a field the same type. -/
theorem field?_eq_of_equivalent (x : String) :
  TypeScope.field? scopes x = TypeScope.field? scopes' x
  := by
  induction h with
  | nil => rfl
  | cons ht _ ih =>
    rw [TypeScope.field?, TypeScope.field?] at ih
    rw [TypeScope.field?, TypeScope.field?, List.findSome?_cons, List.findSome?_cons,
      ht.lookUp?_eq, ih]

/-- Equivalent scopes find the same type that declares a method. -/
theorem map_name_find?_of_equivalent (method : String) :
  (scopes.find? (·.methods.contains method)).map TypeScope.name
    = (scopes'.find? (·.methods.contains method)).map TypeScope.name
  := by
  induction h with
  | nil => rfl
  | @cons t t' _ _ ht _ ih =>
    have hcontains : t.methods.contains method = t'.methods.contains method := by
      rw [Bool.eq_iff_iff, List.contains_iff_mem, List.contains_iff_mem, ht.mem_methods_iff]
    rw [List.find?_cons, List.find?_cons, hcontains]
    cases t'.methods.contains method
    · exact ih
    · exact congrArg some ht.name_eq

/-! ### Calls -/

variable (s : Source) (imports : Imports)

/-- A call without a receiver has the same owner in equivalent scopes. -/
theorem unqualifiedOwner_eq_of_equivalent (method : String) :
  unqualifiedOwner ⟨s, imports, scopes⟩ method = unqualifiedOwner ⟨s, imports, scopes'⟩ method
  := by
  have hfind := map_name_find?_of_equivalent h method
  rw [unqualifiedOwner, unqualifiedOwner]
  obtain ⟨hnone, hnone'⟩ | ⟨t, t', ht, ht', hname⟩ := eq_none_or_exists_of_map_eq hfind
  · simp only [hnone, hnone', enclosing_eq_of_equivalent h]
  · simp only [ht, ht', hname]

/-- An accessed field has the same type in equivalent scopes. -/
theorem accessedType_eq_of_equivalent (access : Node) :
  accessedType ⟨s, imports, scopes⟩ access = accessedType ⟨s, imports, scopes'⟩ access
  := by
  rw [accessedType, accessedType]
  cases access.child? "field" with
  | none => rfl
  | some field =>
    cases h with
    | nil => rfl
    | cons ht _ => simp only [ht.lookUp?_eq]

/-- A receiver has the same type in equivalent scopes. -/
theorem receiverType_eq_of_equivalent (frames : Frames) (object : Node) :
  receiverType ⟨s, imports, scopes⟩ frames object
    = receiverType ⟨s, imports, scopes'⟩ frames object
  := by
  simp only [receiverType, namedType, enclosing_eq_of_equivalent h, parent_eq_of_equivalent h,
    field?_eq_of_equivalent h, accessedType_eq_of_equivalent h]

/-- A node makes the same call itself in equivalent scopes. -/
theorem ownCall_eq_of_equivalent (frames : Frames) (n : Node) :
  ownCall ⟨s, imports, scopes⟩ frames n = ownCall ⟨s, imports, scopes'⟩ frames n
  := by
  simp only [ownCall, call?, unqualifiedOwner_eq_of_equivalent h,
    receiverType_eq_of_equivalent h]

end

variable {scopes scopes' : List TypeScope}

mutual

/-- The calls of a tree are the same under equivalent scopes. -/
theorem callsOf_eq_of_equivalent (h : EquivalentScopes scopes scopes') (s : Source)
    (imports : Imports) (frames : Frames) :
  ∀ n : Node, callsOf ⟨s, imports, scopes⟩ frames n = callsOf ⟨s, imports, scopes'⟩ frames n
  | .mk label children => by
    have hinside : enter ⟨s, imports, scopes⟩ frames (.mk label children)
      = enter ⟨s, imports, scopes'⟩ frames (.mk label children) := rfl
    rw [callsOf_eq, callsOf_eq, ownCall_eq_of_equivalent h, hinside,
      callsOfNamed_eq_of_equivalent h]

/-- A list of nodes makes the same calls in equivalent scopes. -/
theorem callsOfNamed_eq_of_equivalent (h : EquivalentScopes scopes scopes') (s : Source)
    (imports : Imports) (frames : Frames) :
  ∀ ns : List Node, callsOfNamed ⟨s, imports, scopes⟩ frames ns
    = callsOfNamed ⟨s, imports, scopes'⟩ frames ns
  | [] => rfl
  | n :: ns => by
    rw [callsOfNamed_cons, callsOfNamed_cons, callsOf_eq_of_equivalent h s imports frames n,
      callsOfNamed_eq_of_equivalent h s imports _ ns, callsOfNamed_eq_of_equivalent h s imports _ ns]

end

/-- The facts about a method are the same in equivalent scopes. -/
theorem methodFacts_eq_of_equivalent (h : EquivalentScopes scopes scopes') (s : Source)
    (imports : Imports) (member : Node) :
  methodFacts ⟨s, imports, scopes⟩ member = methodFacts ⟨s, imports, scopes'⟩ member
  := by
  have hcalls (locals : List (String × String)) (body : Node) :
      collectCalls ⟨s, imports, scopes⟩ (Frames.start.declareAll locals) body
        = collectCalls ⟨s, imports, scopes'⟩ (Frames.start.declareAll locals) body := by
    rw [collectCalls_eq _ (declareAll_start_ne_nil _), collectCalls_eq _ (declareAll_start_ne_nil _),
      callsOf_eq_of_equivalent h]
  rw [methodFacts, methodFacts]
  congr 3
  funext body
  apply hcalls

/-! ### Types -/

/-- The facts about a class are the same in equivalent scopes. -/
theorem classFactsOf_eq_of_equivalent (h : EquivalentScopes scopes scopes') (c : FileContext)
    (name : String) (declaration : Node) :
  classFactsOf c scopes name declaration = classFactsOf c scopes' name declaration
  := by
  rw [classFactsOf, classFactsOf]
  congr 2
  funext member
  apply methodFacts_eq_of_equivalent h

/-- The facts about a type are the same under equivalent scopes around it. -/
theorem typesOf_eq_of_equivalent (c : FileContext) {outer outer' : List TypeScope}
    (h : EquivalentScopes outer outer') (declaration : Node) :
  typesOf c outer declaration = typesOf c outer' declaration
  := by
  induction hsize : declaration.size using Nat.strongRecOn generalizing declaration outer outer' with
  | ind size ih =>
    subst hsize
    cases hname : declaration.child? "name" with
    | none => rw [typesOf_of_eq_none c outer hname, typesOf_of_eq_none c outer' hname]
    | some name =>
      have hinner : EquivalentScopes
          (scopeOf c.source (name.text c.source) declaration :: outer)
          (scopeOf c.source (name.text c.source) declaration :: outer') := by
        apply List.Forall₂.cons _ h
        apply TypeScope.Equivalent.refl
      rw [typesOf_of_eq_some c outer hname, typesOf_of_eq_some c outer' hname,
        classFactsOf_eq_of_equivalent hinner]
      congr 1
      apply List.flatMap_congr
      intro m hm
      apply ih _ (size_lt_of_mem_members (List.mem_of_mem_filter hm)) hinner _ rfl

end Cohesion.Java
