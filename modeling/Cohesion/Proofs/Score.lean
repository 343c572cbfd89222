import Cohesion.Score
import Mathlib.Data.Rat.Defs
import Mathlib.Tactic.Use

/-!
# The order of scores

`Score.IsTotalOn P` says that the comparison of scores is a total preorder on those that satisfy
`P`.  Then two scores tie exactly when neither is below the other, and ties are transitive.
Fractions are totally ordered: `Score.isTotalOn_rat`.  A list is sorted by descending scores,
whatever breaks ties, if its scores are comparable: `Score.pairwise_mergeSort_higherFirst`.
-/

namespace Cohesion

namespace Score

variable {S : Type} [Score S]

/-- A score compares as less exactly when it is less. -/
theorem compare_eq_lt_iff {a b : S} :
  compare a b = .lt ↔ lt a b
  := by
  rw [compare]
  split
  · rename_i hab
    apply iff_of_true rfl hab
  · rename_i hab
    split
    · simp [hab]
    · simp [hab]

/-- On the scores that satisfy `P` the comparison is a total preorder. -/
structure IsTotalOn (P : S → Prop) : Prop where
  le_total : ∀ {a b : S}, P a → P b → le a b ∨ le b a
  le_trans : ∀ {a b c : S}, P a → P b → P c → le a b → le b c → le a c
  lt_iff : ∀ {a b : S}, P a → P b → (lt a b ↔ ¬ le b a)

namespace IsTotalOn

variable {P : S → Prop} {a b c : S}

theorem le_of_lt (h : IsTotalOn P) (ha : P a) (hb : P b) (hab : lt a b) :
  le a b
  := (h.le_total ha hb).resolve_right ((h.lt_iff ha hb).mp hab)

/-- Of two comparable scores at most one is less than the other. -/
theorem lt_asymm (h : IsTotalOn P) (ha : P a) (hb : P b) (hab : lt a b) :
  ¬ lt b a
  := by
  rw [h.lt_iff hb ha, not_not]
  apply h.le_of_lt ha hb hab

theorem lt_of_lt_of_le (h : IsTotalOn P) (ha : P a) (hb : P b) (hc : P c) (hab : lt a b)
    (hbc : le b c) :
  lt a c
  := by
  rw [h.lt_iff ha hc]
  intro hca
  apply (h.lt_iff ha hb).mp hab (h.le_trans hb hc ha hbc hca)

theorem lt_of_le_of_lt (h : IsTotalOn P) (ha : P a) (hb : P b) (hc : P c) (hab : le a b)
    (hbc : lt b c) :
  lt a c
  := by
  rw [h.lt_iff ha hc]
  intro hca
  apply (h.lt_iff hb hc).mp hbc (h.le_trans hc ha hb hca hab)

theorem compare_eq_gt_iff (h : IsTotalOn P) (ha : P a) (hb : P b) :
  compare a b = .gt ↔ lt b a
  := by
  rw [compare]
  split
  · rename_i hab
    constructor
    · rintro ⟨⟩
    · intro hba
      apply absurd hba (h.lt_asymm ha hb hab)
  · split
    · rename_i hba
      apply iff_of_true rfl hba
    · rename_i hba
      constructor
      · rintro ⟨⟩
      · intro hba'
        apply absurd hba' hba

/-- Two scores tie when neither is below the other. -/
theorem compare_eq_eq_iff (h : IsTotalOn P) (ha : P a) (hb : P b) :
  compare a b = .eq ↔ le a b ∧ le b a
  := by
  rw [compare, ← not_not (a := le a b), ← not_not (a := le b a), ← h.lt_iff ha hb,
    ← h.lt_iff hb ha]
  split
  · rename_i hab
    simp [hab]
  · split
    · rename_i hba
      simp [hba]
    · rename_i hab hba
      simp [hab, hba]

end IsTotalOn

/-- Fractions are totally ordered. -/
theorem isTotalOn_rat :
  IsTotalOn fun _ : Rat => True
  := by
  constructor
  · intro a b _ _
    simp only [le, decide_eq_true_eq]
    apply Rat.le_total
  · intro a b c _ _ _ hab hbc
    simp only [le, decide_eq_true_eq] at hab hbc ⊢
    apply Rat.le_trans hab hbc
  · intro a b _ _
    simp only [le, lt, decide_eq_true_eq]
    rw [Rat.not_le]

/-! ### Sorting by score -/

/-- The elements of a list that all satisfy `P` are sorted by an order that is total and transitive
on what satisfies `P`. -/
theorem pairwise_mergeSort_of_forall {α : Type} {P : α → Prop} {before : α → α → Bool}
    (trans : ∀ a b c, P a → P b → P c → before a b → before b c → before a c)
    (total : ∀ a b, P a → P b → before a b ∨ before b a) {xs : List α} (hxs : ∀ x ∈ xs, P x) :
  (xs.mergeSort before).Pairwise fun a b => before a b
  := by
  have hsort : ((xs.attachWith P hxs).mergeSort fun a b => before a b).map Subtype.val
      = xs.mergeSort before := by
    rw [List.map_mergeSort (s := before) (fun _ _ _ _ => rfl), List.attachWith_map_subtype_val]
  rw [← hsort, List.pairwise_map]
  apply List.pairwise_mergeSort
  · intro a b c
    apply trans a b c a.2 b.2 c.2
  · intro a b
    rw [Bool.or_eq_true]
    apply total a b a.2 b.2

section

variable {α : Type} (score : α → S) (cmp : α → α → Ordering)

/-- Whether `a` comes before `b` when higher scores come first and ties are broken by `cmp`. -/
def higherFirst (a b : α) : Bool :=
  ((compare (score b) (score a)).then (cmp a b)).isLE

variable {score cmp} {P : S → Prop} {a b c : α}

/-- Sorted with the higher first, an element comes before those of lower scores, and among equals by
the tie order. -/
theorem higherFirst_iff (h : IsTotalOn P) (ha : P (score a)) (hb : P (score b)) :
  higherFirst score cmp a b
    ↔ lt (score b) (score a)
      ∨ (le (score a) (score b) ∧ le (score b) (score a)) ∧ (cmp a b).isLE
  := by
  rw [higherFirst, Ordering.isLE_then_iff_or, compare_eq_lt_iff, h.compare_eq_eq_iff hb ha,
    and_comm (a := (le (score b) (score a) : Prop))]

/-- On comparable scores the order with the higher first is transitive. -/
theorem higherFirst_trans [Std.TransCmp cmp] (h : IsTotalOn P) (ha : P (score a))
    (hb : P (score b)) (hc : P (score c)) (hab : higherFirst score cmp a b)
    (hbc : higherFirst score cmp b c) :
  higherFirst score cmp a c
  := by
  rw [higherFirst_iff h ha hb] at hab
  rw [higherFirst_iff h hb hc] at hbc
  rw [higherFirst_iff h ha hc]
  rcases hab with hab | ⟨⟨hab, hba⟩, htie⟩
  · left
    rcases hbc with hbc | ⟨⟨-, hcb⟩, -⟩
    · apply h.lt_of_lt_of_le hc hb ha hbc (h.le_of_lt hb ha hab)
    · apply h.lt_of_le_of_lt hc hb ha hcb hab
  · rcases hbc with hbc | ⟨⟨hbc, hcb⟩, htie'⟩
    · left
      apply h.lt_of_lt_of_le hc hb ha hbc hba
    · right
      use ⟨h.le_trans ha hb hc hab hbc, h.le_trans hc hb ha hcb hba⟩
      apply Std.TransCmp.isLE_trans htie htie'

/-- On comparable scores the order with the higher first is total. -/
theorem higherFirst_total [Std.OrientedCmp cmp] (h : IsTotalOn P) (ha : P (score a))
    (hb : P (score b)) :
  higherFirst score cmp a b ∨ higherFirst score cmp b a
  := by
  rw [higherFirst_iff h ha hb, higherFirst_iff h hb ha]
  by_cases hab : le (score a) (score b)
  · by_cases hba : le (score b) (score a)
    · cases htie : (cmp a b).isLE with
      | true =>
        left; right
        use ⟨hab, hba⟩
      | false =>
        right; right
        use ⟨hba, hab⟩
        have hswap : cmp b a = (cmp a b).swap := Std.OrientedCmp.eq_swap
        rw [hswap, Ordering.isLE_swap]
        cases hcmp : cmp a b with
        | lt =>
          rw [hcmp] at htie
          cases htie
        | eq =>
          rw [hcmp] at htie
          cases htie
        | gt => rfl
    · right; left
      apply (h.lt_iff ha hb).mpr hba
  · left; left
    apply (h.lt_iff hb ha).mpr hab

/-- A list whose scores are comparable is sorted by descending score and then by `cmp`. -/
theorem pairwise_mergeSort_higherFirst [Std.TransCmp cmp] (h : IsTotalOn P) {xs : List α}
    (hxs : ∀ x ∈ xs, P (score x)) :
  (xs.mergeSort (higherFirst score cmp)).Pairwise fun a b => higherFirst score cmp a b
  := by
  apply pairwise_mergeSort_of_forall (P := fun x => P (score x)) _ _ hxs
  · intro a b c ha hb hc
    apply higherFirst_trans h ha hb hc
  · intro a b ha hb
    apply higherFirst_total h ha hb

end

end Score

end Cohesion
