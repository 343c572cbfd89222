import Cohesion.Lists
import Mathlib.Data.List.Basic
import Mathlib.Data.Nat.Choose.Basic

/-!
# The pairs of a list, as a relation

`pairsOf xs` holds `(x, y)` when `x` stands before `y` in `xs`: `mem_pairsOf`.  So it holds every
two different entries of `xs` in one of the two orders, and in an ascending list the smaller one
first.  There are as many of them as choices of two positions: `length_pairsOf`.
-/

namespace Cohesion

variable {α : Type}

/-- The pairs of a list are its sublists of length two. -/
theorem mem_pairsOf {xs : List α} {x y : α} :
  (x, y) ∈ pairsOf xs ↔ [x, y].Sublist xs
  := by
  induction xs with
  | nil => simp [pairsOf]
  | cons z zs ih =>
    rw [pairsOf, List.mem_append, ih, List.sublist_cons_iff, or_comm]
    apply or_congr Iff.rfl
    constructor
    · intro h
      obtain ⟨y', hy', ⟨⟩⟩ := List.mem_map.mp h
      use [y], rfl
      apply List.singleton_sublist.mpr hy'
    · rintro ⟨_, ⟨⟩, hy⟩
      apply List.mem_map_of_mem (List.singleton_sublist.mp hy)

theorem mem_of_mem_pairsOf {xs : List α} {x y : α} (h : (x, y) ∈ pairsOf xs) :
  x ∈ xs ∧ y ∈ xs
  := by
  have hsub := (mem_pairsOf.mp h).subset
  constructor
  · apply hsub List.mem_cons_self
  · apply hsub (List.mem_cons_of_mem x List.mem_cons_self)

/-- A relation holds pairwise in a list exactly when it holds for each of its pairs. -/
theorem pairwise_iff_forall_mem_pairsOf {R : α → α → Prop} {xs : List α} :
  xs.Pairwise R ↔ ∀ x y, (x, y) ∈ pairsOf xs → R x y
  := by
  rw [List.pairwise_iff_forall_sublist]
  simp only [mem_pairsOf]

/-- Of two different entries one stands before the other. -/
theorem mem_pairsOf_or_mem_pairsOf {xs : List α} {x y : α} (hx : x ∈ xs) (hy : y ∈ xs)
    (hne : x ≠ y) :
  (x, y) ∈ pairsOf xs ∨ (y, x) ∈ pairsOf xs
  := by
  induction xs with
  | nil => apply absurd hx List.not_mem_nil
  | cons z zs ih =>
    simp only [pairsOf, List.mem_append]
    rcases List.mem_cons.mp hx with rfl | hxs
    · rcases List.mem_cons.mp hy with rfl | hys
      · apply absurd rfl hne
      · left; left
        apply List.mem_map_of_mem hys
    · rcases List.mem_cons.mp hy with rfl | hys
      · right; left
        apply List.mem_map_of_mem hxs
      · rcases ih hxs hys with h | h
        · left; right
          apply h
        · right; right
          apply h

/-- In a list that ascends in a strict order the pairs are those of a smaller and a larger entry. -/
theorem mem_pairsOf_iff_of_pairwise {R : α → α → Prop} (htrans : ∀ x y z, R x y → R y z → R x z)
    (hirrefl : ∀ x, ¬ R x x) {xs : List α} (hxs : xs.Pairwise R) {x y : α} :
  (x, y) ∈ pairsOf xs ↔ x ∈ xs ∧ y ∈ xs ∧ R x y
  := by
  have hall := pairwise_iff_forall_mem_pairsOf.mp hxs
  constructor
  · intro h
    use (mem_of_mem_pairsOf h).1, (mem_of_mem_pairsOf h).2
    apply hall x y h
  · rintro ⟨hx, hy, hxy⟩
    have hne : x ≠ y := by
      rintro rfl
      apply hirrefl x hxy
    rcases mem_pairsOf_or_mem_pairsOf hx hy hne with h | h
    · apply h
    · apply absurd (htrans x y x hxy (hall y x h)) (hirrefl x)

/-- The pairs of mapped elements are the mapped pairs. -/
theorem pairsOf_map {β : Type} (f : α → β) (xs : List α) :
  pairsOf (xs.map f) = (pairsOf xs).map fun p => (f p.1, f p.2)
  := by
  induction xs with
  | nil => rfl
  | cons x xs ih =>
    rw [List.map_cons, pairsOf, pairsOf, ih, List.map_append, List.map_map, List.map_map]
    rfl

/-- A list has as many pairs as it has choices of two positions. -/
theorem length_pairsOf (xs : List α) :
  (pairsOf xs).length = xs.length.choose 2
  := by
  induction xs with
  | nil => rfl
  | cons x xs ih =>
    rw [pairsOf, List.length_append, List.length_map, ih, List.length_cons, Nat.choose_succ_succ,
      Nat.choose_one_right]

/-- A list has no pairs exactly when it has at most one element. -/
theorem pairsOf_eq_nil_iff {xs : List α} :
  pairsOf xs = [] ↔ xs.length ≤ 1
  := by
  cases xs with
  | nil => simp [pairsOf]
  | cons x xs =>
    cases xs with
    | nil => simp [pairsOf]
    | cons y ys => simp [pairsOf]

end Cohesion
