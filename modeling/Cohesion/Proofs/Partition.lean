import Cohesion.Merge
import Cohesion.Proofs.NameSet

/-!
# Partitions of a set of classes

A list of blocks is a partition of a set of classes when the blocks are non-empty, no two of them
have a common member, and their members are the classes.  `IsOrderedPartition` adds that the blocks
stand in the order of their least members.  The singletons are such a partition, and replacing two
different blocks by their union makes a partition of a partition: `IsPartition.replayStep`.
-/

namespace Cohesion

/-- `blocks` are non-empty, have no common members, and hold the members of `classes`. -/
structure IsPartition (classes : NameSet) (blocks : List NameSet) : Prop where
  ne_empty : ∀ b ∈ blocks, b ≠ ∅
  disjoint : blocks.Pairwise NameSet.Disjoint
  cover : ∀ x, x ∈ classes ↔ ∃ b ∈ blocks, x ∈ b

/-- A partition whose blocks stand in the strict order of their least members. -/
structure IsOrderedPartition (classes : NameSet) (blocks : List NameSet) : Prop
    extends IsPartition classes blocks where
  ascending : blocks.Pairwise NameSet.StartsBefore

namespace IsPartition

variable {classes : NameSet} {blocks : List NameSet}

/-- A partition stays one in every order of its blocks. -/
theorem perm {blocks' : List NameSet} (h : IsPartition classes blocks)
    (hperm : blocks.Perm blocks') :
  IsPartition classes blocks'
  := by
  constructor
  · intro b hb
    apply h.ne_empty b (hperm.mem_iff.mpr hb)
  · apply (hperm.pairwise_iff NameSet.Disjoint.symm).mp h.disjoint
  · intro x
    rw [h.cover x]
    simp only [hperm.mem_iff]

theorem subset (h : IsPartition classes blocks) {b : NameSet} (hb : b ∈ blocks) {x : String}
    (hx : x ∈ b) :
  x ∈ classes
  := (h.cover x).mpr ⟨b, hb, hx⟩

/-- No block of a partition is listed twice. -/
theorem nodup (h : IsPartition classes blocks) :
  blocks.Nodup
  := by
  apply List.Pairwise.imp_of_mem _ h.disjoint
  rintro b c hb - hdisjoint rfl
  apply h.ne_empty b hb hdisjoint.eq_empty

/-- Two blocks with a common member are the same block. -/
theorem eq_of_mem_of_mem (h : IsPartition classes blocks) {b c : NameSet} (hb : b ∈ blocks)
    (hc : c ∈ blocks) {x : String} (hxb : x ∈ b) (hxc : x ∈ c) :
  b = c
  := by
  by_contra hne
  apply h.disjoint.forall hb hc hne x hxb hxc

/-- Different blocks of a partition share no class. -/
theorem disjoint_of_ne (h : IsPartition classes blocks) {b c : NameSet} (hb : b ∈ blocks)
    (hc : c ∈ blocks) (hne : b ≠ c) :
  b.Disjoint c
  := by
  intro x hxb hxc
  apply hne (h.eq_of_mem_of_mem hb hc hxb hxc)

/-- A partition into one block has the whole set as this block. -/
theorem eq_of_length_eq_one (h : IsPartition classes blocks) (hlength : blocks.length = 1) :
  blocks = [classes]
  := by
  obtain ⟨b, rfl⟩ := List.length_eq_one_iff.mp hlength
  congr 1
  ext x
  rw [h.cover x]
  simp

/-- Only the empty set has a partition without blocks. -/
theorem eq_nil_iff (h : IsPartition classes blocks) :
  blocks = [] ↔ classes = ∅
  := by
  constructor
  · rintro rfl
    ext x
    rw [h.cover x]
    simp
  · rintro rfl
    apply List.eq_nil_iff_forall_not_mem.mpr
    intro b hb
    obtain ⟨x, hx⟩ := NameSet.ne_empty_iff.mp (h.ne_empty b hb)
    apply NameSet.not_mem_empty x (h.subset hb hx)

end IsPartition

/-! ### Singletons -/

/-- The singletons of a set are those of its members. -/
theorem mem_singletons {classes b : NameSet} :
  b ∈ singletons classes ↔ ∃ x ∈ classes, b = .singleton x
  := by
  rw [singletons, List.mem_map]
  constructor
  · rintro ⟨x, hx, rfl⟩
    use x, hx
  · rintro ⟨x, hx, rfl⟩
    use x, hx

@[simp]
theorem length_singletons (classes : NameSet) :
  (singletons classes).length = classes.size
  := List.length_map _

theorem startsBefore_singleton {x y : String} (h : x < y) :
  (NameSet.singleton x).StartsBefore (.singleton y)
  := ⟨x, rfl, y, rfl, h⟩

/-- The singletons of a set are an ordered partition of it. -/
theorem isOrderedPartition_singletons (classes : NameSet) :
  IsOrderedPartition classes (singletons classes)
  := by
  constructor
  · constructor
    · intro b hb
      obtain ⟨x, -, rfl⟩ := mem_singletons.mp hb
      apply NameSet.ne_empty_iff.mpr
      use x
      apply NameSet.mem_singleton.mpr rfl
    · apply List.pairwise_map.mpr
      apply classes.nodup.imp
      intro x y hne z hx hy
      apply hne ((NameSet.mem_singleton.mp hx).symm.trans (NameSet.mem_singleton.mp hy))
    · intro x
      constructor
      · intro hx
        use .singleton x, mem_singletons.mpr ⟨x, hx, rfl⟩
        apply NameSet.mem_singleton.mpr rfl
      · rintro ⟨b, hb, hx⟩
        obtain ⟨y, hy, rfl⟩ := mem_singletons.mp hb
        obtain rfl := NameSet.mem_singleton.mp hx
        apply hy
  · apply List.pairwise_map.mpr
    apply classes.ascending.imp
    intro x y hxy
    apply startsBefore_singleton hxy

/-! ### Replacing two blocks by their union -/

section

variable {S : Type} {classes : NameSet} {blocks : List NameSet} {m : Merge S}

/-- A step of the replay takes away the two parts and adds their union. -/
theorem mem_replayStep {b : NameSet} :
  b ∈ replayStep blocks m ↔ b ∈ blocks ∧ b ≠ m.left ∧ b ≠ m.right ∨ b = m.merged
  := by
  simp [replayStep]

/-- The order of the blocks does not matter to which blocks are left. -/
theorem replayStep_perm {blocks' : List NameSet} (h : blocks.Perm blocks') (m : Merge S) :
  (replayStep blocks m).Perm (replayStep blocks' m)
  := (h.filter _).append_right _

/-- Two blocks of a partition replaced by their union leave a partition. -/
theorem IsPartition.replayStep (h : IsPartition classes blocks) (hleft : m.left ∈ blocks)
    (hright : m.right ∈ blocks) :
  IsPartition classes (replayStep blocks m)
  := by
  constructor
  · intro b hb
    rcases mem_replayStep.mp hb with ⟨hb, -⟩ | rfl
    · apply h.ne_empty b hb
    · obtain ⟨x, hx⟩ := NameSet.ne_empty_iff.mp (h.ne_empty _ hleft)
      apply NameSet.ne_empty_iff.mpr
      use x
      apply NameSet.mem_union.mpr (Or.inl hx)
  · apply List.pairwise_append.mpr
    use h.disjoint.filter _, List.pairwise_singleton _ _
    intro b hb c hc
    obtain ⟨hb, hne⟩ := List.mem_filter.mp hb
    obtain rfl := List.mem_singleton.mp hc
    obtain ⟨hl, hr⟩ := of_decide_eq_true hne
    intro x hxb hx
    -- A block that shares a class with one of the two parts is that part, and was taken away.
    rcases NameSet.mem_union.mp hx with hx | hx
    · apply hl (h.eq_of_mem_of_mem hb hleft hxb hx)
    · apply hr (h.eq_of_mem_of_mem hb hright hxb hx)
  · intro x
    rw [h.cover x]
    constructor
    · rintro ⟨b, hb, hx⟩
      by_cases hside : b = m.left ∨ b = m.right
      · use m.merged, mem_replayStep.mpr (Or.inr rfl)
        rcases hside with rfl | rfl
        · apply NameSet.mem_union.mpr (Or.inl hx)
        · apply NameSet.mem_union.mpr (Or.inr hx)
      · use b, mem_replayStep.mpr (Or.inl ⟨hb, not_or.mp hside⟩)
    · rintro ⟨b, hb, hx⟩
      rcases mem_replayStep.mp hb with ⟨hb, -⟩ | rfl
      · use b, hb
      · rcases NameSet.mem_union.mp hx with hx | hx
        · use m.left, hleft
        · use m.right, hright

end

end Cohesion
