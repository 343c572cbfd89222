import Cohesion.NameSet
import Mathlib.Data.List.Nodup
import Mathlib.Data.List.Pairwise
import Mathlib.Data.List.Perm.Subperm
import Mathlib.Data.String.Basic

/-!
# Least members and sizes

`NameSet.least?` is the first name of a set, and `NameSet.StartsBefore` orders sets by it.
A union that takes in a set which starts later keeps its least member: `NameSet.least?_union`.
The names of a union of disjoint sets are those of both sets together, and a set within another one
that has no more members is the same set.  `NameSet.pairwise_sortBySize` says in which order
`NameSet.sortBySize` lists sets.
-/

namespace Cohesion

namespace NameSet

/-! ### Members -/

/-- The names of a set are listed once each. -/
theorem nodup (s : NameSet) :
  s.names.Nodup
  := s.ascending.imp ne_of_lt

theorem ne_empty_iff {s : NameSet} :
  s ≠ ∅ ↔ ∃ x, x ∈ s
  := by
  constructor
  · intro hs
    by_contra hx
    apply hs
    ext x
    constructor
    · intro h
      apply absurd ⟨x, h⟩ hx
    · intro h
      apply absurd h (not_mem_empty x)
  · rintro ⟨x, hx⟩ rfl
    apply not_mem_empty x hx

theorem names_ne_nil {s : NameSet} (hs : s ≠ ∅) :
  s.names ≠ []
  := by
  obtain ⟨x, hx⟩ := ne_empty_iff.mp hs
  apply List.ne_nil_of_mem hx

theorem Disjoint.symm {s t : NameSet} (h : s.Disjoint t) :
  t.Disjoint s
  := by
  intro x ht hs
  apply h x hs ht

instance : Std.Symm Disjoint :=
  ⟨fun _ _ => Disjoint.symm⟩

/-- A set that is disjoint from itself is empty. -/
theorem Disjoint.eq_empty {s : NameSet} (h : s.Disjoint s) :
  s = ∅
  := by
  by_contra hs
  obtain ⟨x, hx⟩ := ne_empty_iff.mp hs
  apply h x hx hx

/-! ### Least members -/

/-- The least member of a set, if it has any member. -/
def least? (s : NameSet) : Option String :=
  s.names.head?

/-- The least name of a set is the one that none of its names comes before. -/
theorem least?_eq_some_iff {s : NameSet} {x : String} :
  s.least? = some x ↔ x ∈ s ∧ ∀ y, y ∈ s → x ≤ y
  := by
  obtain ⟨names, ascending⟩ := s
  cases names with
  | nil =>
    constructor
    · rintro ⟨⟩
    · rintro ⟨h, -⟩
      apply absurd h List.not_mem_nil
  | cons z zs =>
    have hz := List.pairwise_cons.mp ascending
    constructor
    · rintro ⟨⟩
      use List.mem_cons_self
      intro y hy
      rcases List.mem_cons.mp hy with rfl | hy
      · apply le_refl
      · apply le_of_lt (hz.1 y hy)
    · rintro ⟨hx, hle⟩
      rcases List.mem_cons.mp hx with rfl | hx
      · rfl
      · apply absurd (hz.1 x hx) (not_lt_of_ge (hle z List.mem_cons_self))

/-- `s` and `t` have least members, and that of `s` is smaller. -/
def StartsBefore (s t : NameSet) : Prop :=
  ∃ x ∈ s.least?, ∃ y ∈ t.least?, x < y

instance (s t : NameSet) : Decidable (s.StartsBefore t) :=
  inferInstanceAs (Decidable (∃ x ∈ s.least?, ∃ y ∈ t.least?, x < y))

/-- The order of sets by their least names is transitive. -/
theorem StartsBefore.trans {s t u : NameSet} (hst : s.StartsBefore t) (htu : t.StartsBefore u) :
  s.StartsBefore u
  := by
  obtain ⟨x, hx, y, hy, hxy⟩ := hst
  obtain ⟨y', hy', z, hz, hyz⟩ := htu
  obtain rfl : y = y' := Option.mem_unique hy hy'
  use x, hx, z, hz
  apply lt_trans hxy hyz

/-- No set starts before itself. -/
theorem StartsBefore.irrefl (s : NameSet) :
  ¬ s.StartsBefore s
  := by
  rintro ⟨x, hx, y, hy, hxy⟩
  obtain rfl : x = y := Option.mem_unique hx hy
  apply lt_irrefl x hxy

theorem StartsBefore.ne {s t : NameSet} (h : s.StartsBefore t) :
  s ≠ t
  := by
  rintro rfl
  apply StartsBefore.irrefl s h

/-- Sets with the same least member start before the same sets and after the same sets. -/
theorem StartsBefore.congr {s s' t t' : NameSet} (hs : s'.least? = s.least?)
    (ht : t'.least? = t.least?) (h : s.StartsBefore t) :
  s'.StartsBefore t'
  := by
  rw [StartsBefore, hs, ht]
  apply h

/-- Taking in a set that starts later does not change the least member. -/
theorem least?_union {s t : NameSet} (h : s.StartsBefore t) :
  (s ∪ t).least? = s.least?
  := by
  obtain ⟨x, hx, y, hy, hxy⟩ := h
  obtain ⟨hmem, hle⟩ := least?_eq_some_iff.mp hx
  obtain ⟨-, hle'⟩ := least?_eq_some_iff.mp hy
  rw [Option.mem_def.mp hx, least?_eq_some_iff]
  use mem_union.mpr (Or.inl hmem)
  intro z hz
  rcases mem_union.mp hz with hz | hz
  · apply hle z hz
  · apply le_trans (le_of_lt hxy) (hle' z hz)

/-! ### Sizes -/

/-- A list of the members of a set, each once, is a permutation of its names. -/
theorem names_perm_of_mem_iff {s : NameSet} {xs : List String} (hxs : xs.Nodup)
    (h : ∀ x, x ∈ xs ↔ x ∈ s) :
  xs.Perm s.names
  := (List.perm_ext_iff_of_nodup hxs s.nodup).mpr h

/-- The names of two disjoint sets are together those of their union. -/
theorem names_union_perm {s t : NameSet} (h : s.Disjoint t) :
  (s.names ++ t.names).Perm (s ∪ t).names
  := by
  apply names_perm_of_mem_iff
  · apply s.nodup.append t.nodup
    intro x hs ht
    apply h x hs ht
  · intro x
    rw [List.mem_append, mem_names, mem_names, mem_union]

theorem size_singleton (x : String) :
  (singleton x).size = 1
  := rfl

/-- The sizes of disjoint sets add up. -/
theorem size_union {s t : NameSet} (h : s.Disjoint t) :
  (s ∪ t).size = s.size + t.size
  := by
  rw [size, ← (names_union_perm h).length_eq, List.length_append]
  rfl

theorem size_pos_iff {s : NameSet} :
  0 < s.size ↔ s ≠ ∅
  := by
  rw [ne_empty_iff]
  apply List.length_pos_iff_exists_mem

theorem size_eq_zero_iff {s : NameSet} :
  s.size = 0 ↔ s = ∅
  := by
  rw [← not_iff_not, ← ne_eq, ← Nat.pos_iff_ne_zero]
  apply size_pos_iff

/-- A set has at most one member when any two members are the same one. -/
theorem size_le_one_iff {s : NameSet} :
  s.size ≤ 1 ↔ ∀ x y, x ∈ s → y ∈ s → x = y
  := by
  constructor
  · intro h x y hx hy
    by_contra hne
    have hnodup : [x, y].Nodup := by simpa using hne
    have hsubset : [x, y] ⊆ s.names := by simpa using ⟨hx, hy⟩
    apply absurd ((List.subperm_of_subset hnodup hsubset).length_le.trans h)
    apply Nat.not_succ_le_self
  · obtain ⟨names, ascending⟩ := s
    intro h
    cases names with
    | nil => apply Nat.zero_le
    | cons x names =>
      cases names with
      | nil => apply le_refl
      | cons y names =>
        have hlt := (List.pairwise_cons.mp ascending).1 y List.mem_cons_self
        apply absurd (h x y List.mem_cons_self (List.mem_cons_of_mem x List.mem_cons_self))
        apply ne_of_lt hlt

/-- A set within another one that has no more members is the same set. -/
theorem eq_of_subset_of_size_le {s t : NameSet} (h : ∀ x, x ∈ s → x ∈ t) (hle : t.size ≤ s.size) :
  s = t
  := by
  have hperm : s.names.Perm t.names := (List.subperm_of_subset s.nodup h).perm_of_length_le hle
  ext x
  apply hperm.mem_iff

/-! ### Sorting by size -/

/-- Larger sets come before smaller ones, and sets of one size in the order of their keys. -/
theorem comesBefore_iff {s t : NameSet} :
  s.comesBefore t ↔ t.size < s.size ∨ t.size = s.size ∧ s.key ≤ t.key
  := by
  rw [comesBefore, Bool.or_eq_true, Bool.and_eq_true, decide_eq_true_iff, decide_eq_true_iff,
    beq_iff_eq]

/-- Sorted by size, larger sets stand before smaller ones, and sets of one size in the order of their
keys. -/
theorem pairwise_sortBySize (sets : List NameSet) :
  (sortBySize sets).Pairwise fun s t => t.size < s.size ∨ t.size = s.size ∧ s.key ≤ t.key
  := by
  simp only [← comesBefore_iff]
  apply List.pairwise_mergeSort
  · intro s t u hst htu
    rw [comesBefore_iff] at hst htu ⊢
    rcases hst with hst | ⟨hst, hkey⟩
    · omega
    · rcases htu with htu | ⟨htu, hkey'⟩
      · omega
      · right
        use htu.trans hst, hkey.trans hkey'
  · intro s t
    rw [Bool.or_eq_true, comesBefore_iff, comesBefore_iff]
    rcases lt_trichotomy s.size t.size with h | h | h
    · right; left
      apply h
    · rcases le_total s.key t.key with hkey | hkey
      · left; right
        use h.symm
      · right; right
        use h
    · left; left
      apply h

end NameSet

end Cohesion
