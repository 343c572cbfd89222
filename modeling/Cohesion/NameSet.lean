/-!
# Sets of class names

A `NameSet` is a finite set of class names, listed in strictly ascending order by code point.
The order is part of the type, so two sets with the same members are equal, and
`NameSet.key`, the members joined by commas, is a text that both print.
`NameSet.mem_insert`, `NameSet.mem_ofList` and `NameSet.mem_union` say what the operations do to
the members, and `NameSet.ext` that the members determine the set.
-/

namespace Cohesion

/-- A finite set of class names, listed in strictly ascending order. -/
structure NameSet where
  names : List String
  ascending : names.Pairwise (· < ·)
  deriving DecidableEq

namespace NameSet

instance : Membership String NameSet :=
  ⟨fun s x => x ∈ s.names⟩

theorem mem_names {s : NameSet} {x : String} :
  x ∈ s.names ↔ x ∈ s
  := Iff.rfl

instance (x : String) (s : NameSet) : Decidable (x ∈ s) :=
  inferInstanceAs (Decidable (x ∈ s.names))

/-- The set without members. -/
def empty : NameSet :=
  ⟨[], .nil⟩

instance : EmptyCollection NameSet := ⟨empty⟩

instance : Inhabited NameSet := ⟨empty⟩

/-- The set with the one member `x`. -/
def singleton (x : String) : NameSet :=
  ⟨[x], by simp⟩

/-- The number of members. -/
def size (s : NameSet) : Nat :=
  s.names.length

/-! ### Insertion -/

/-- A name put at its place in an ascending list, unless it is there already. -/
def insertName (x : String) : List String → List String
  | [] => [x]
  | y :: ys =>
    if x < y then x :: y :: ys
    else if y < x then y :: insertName x ys
    else y :: ys

theorem mem_insertName {x y : String} {ys : List String} :
  y ∈ insertName x ys ↔ y = x ∨ y ∈ ys
  := by
  induction ys with
  | nil => simp [insertName]
  | cons z zs ih =>
    rw [insertName]
    split
    · simp
    · split
      · simp [ih, or_left_comm]
      · have hzx : z = x := String.le_antisymm (by assumption) (by assumption)
        subst hzx
        simp

theorem ascending_insertName {x : String} {ys : List String} (h : ys.Pairwise (· < ·)) :
  (insertName x ys).Pairwise (· < ·)
  := by
  induction ys with
  | nil => simp [insertName]
  | cons z zs ih =>
    rw [List.pairwise_cons] at h
    rw [insertName]
    split
    · rename_i hxz
      rw [List.pairwise_cons, List.pairwise_cons]
      refine ⟨?_, h⟩
      intro y hy
      rcases List.mem_cons.1 hy with rfl | hy
      · exact hxz
      · exact String.lt_trans hxz (h.1 y hy)
    · split
      · rename_i hzx
        rw [List.pairwise_cons]
        refine ⟨?_, ih h.2⟩
        intro y hy
        rcases mem_insertName.1 hy with rfl | hy
        · exact hzx
        · exact h.1 y hy
      · exact List.pairwise_cons.2 h

/-- The set with the further member `x`. -/
def insert (x : String) (s : NameSet) : NameSet :=
  ⟨insertName x s.names, ascending_insertName s.ascending⟩

/-- The set of the names of a list, whatever their order and repetitions. -/
def ofList (xs : List String) : NameSet :=
  xs.foldr insert empty

/-- The members of either set. -/
def union (s t : NameSet) : NameSet :=
  s.names.foldr insert t

instance : Union NameSet := ⟨union⟩

@[simp]
theorem not_mem_empty (x : String) :
  ¬ x ∈ (∅ : NameSet)
  := List.not_mem_nil

@[simp]
theorem mem_singleton {x y : String} :
  x ∈ singleton y ↔ x = y
  := List.mem_singleton

@[simp]
theorem mem_insert {x y : String} {s : NameSet} :
  x ∈ insert y s ↔ x = y ∨ x ∈ s
  := mem_insertName

theorem mem_foldr_insert {x : String} {xs : List String} {s : NameSet} :
  x ∈ xs.foldr insert s ↔ x ∈ xs ∨ x ∈ s
  := by
  induction xs with
  | nil => simp
  | cons y ys ih => simp [ih, or_assoc]

@[simp]
theorem mem_ofList {x : String} {xs : List String} :
  x ∈ ofList xs ↔ x ∈ xs
  := by
  rw [ofList, mem_foldr_insert]
  exact or_iff_left (not_mem_empty x)

@[simp]
theorem mem_union {x : String} {s t : NameSet} :
  x ∈ s ∪ t ↔ x ∈ s ∨ x ∈ t
  := mem_foldr_insert

/-! ### Comparison -/

/-- Two sets with the same members are equal. -/
@[ext]
theorem ext {s t : NameSet} (h : ∀ x, x ∈ s ↔ x ∈ t) :
  s = t
  := by
  obtain ⟨xs, hxs⟩ := s
  obtain ⟨ys, hys⟩ := t
  have hmem : ∀ x, x ∈ xs ↔ x ∈ ys := h
  clear h
  suffices hxy : xs = ys by
    subst hxy
    rfl
  induction xs generalizing ys with
  | nil =>
    cases ys with
    | nil => rfl
    | cons y ys => exact absurd ((hmem y).2 List.mem_cons_self) List.not_mem_nil
  | cons x xs ih =>
    cases ys with
    | nil => exact absurd ((hmem x).1 List.mem_cons_self) List.not_mem_nil
    | cons y ys =>
      rw [List.pairwise_cons] at hxs hys
      have hxy : x = y := by
        rcases List.mem_cons.1 ((hmem x).1 List.mem_cons_self) with hx | hx
        · exact hx
        · rcases List.mem_cons.1 ((hmem y).2 List.mem_cons_self) with hy | hy
          · exact hy.symm
          · exact absurd (hys.1 x hx) (String.lt_asymm (hxs.1 y hy))
      subst hxy
      congr 1
      apply ih hxs.2 ys hys.2
      intro z
      have hz := hmem z
      rw [List.mem_cons, List.mem_cons] at hz
      constructor
      · intro h
        rcases hz.1 (Or.inr h) with rfl | h'
        · exact absurd (hxs.1 z h) (String.lt_irrefl z)
        · exact h'
      · intro h
        rcases hz.2 (Or.inr h) with rfl | h'
        · exact absurd (hys.1 z h) (String.lt_irrefl z)
        · exact h'

/-- Two sets without a common member. -/
def Disjoint (s t : NameSet) : Prop :=
  ∀ x ∈ s.names, x ∉ t.names

instance (s t : NameSet) : Decidable (s.Disjoint t) :=
  inferInstanceAs (Decidable (∀ x ∈ s.names, x ∉ t.names))

/-- The members joined by commas, in ascending order. -/
def key (s : NameSet) : String :=
  ",".intercalate s.names

/-- Larger sets come first, and sets of one size in the order of their keys. -/
def comesBefore (s t : NameSet) : Bool :=
  t.size < s.size || (t.size == s.size && decide (s.key ≤ t.key))

/-- Sets listed by descending size, then by key; sets that tie keep their order. -/
def sortBySize (sets : List NameSet) : List NameSet :=
  sets.mergeSort comesBefore

end NameSet

end Cohesion
