import Cohesion.Proofs.Score
import Mathlib.Data.Prod.Lex
import Mathlib.Order.Compare

/-!
# The order of floating-point numbers

The floating-point numbers that are numbers are totally ordered, up to the two zeros, which tie:
`Score.isTotalOn_float`.  Each has a rank in a linear order: first minus infinity, the negative
numbers, the zeros, the positive numbers and infinity, and among numbers of one sign the exponent
and then the mantissa.
-/

namespace Cohesion

namespace FloatOrder

open Float.Model

/-- The place of a number in the order of all of them. -/
def rank : UnpackedFloat → ℤ ×ₗ ℤ ×ₗ ℤ
  | .infinity .negative => toLex (-2, toLex (0, 0))
  | .finite .negative mantissa exponent _ => toLex (-1, toLex (-exponent, -mantissa))
  | .notANumber => toLex (0, toLex (0, 0))
  | .zero _ => toLex (0, toLex (0, 0))
  | .finite .positive mantissa exponent _ => toLex (1, toLex (exponent, mantissa))
  | .infinity .positive => toLex (2, toLex (0, 0))

theorem rank_positive (m : ℕ) (e : ℤ) (hm : 0 < m) :
  rank (.finite .positive m e hm) = toLex (1, toLex (e, (m : ℤ)))
  := rfl

theorem rank_lt {k l : ℤ} {p q : ℤ ×ₗ ℤ} (h : k < l) :
  toLex (k, p) < toLex (l, q)
  := Prod.Lex.toLex_lt_toLex.mpr (Or.inl h)

theorem lt_iff {k e f m n : ℤ} :
  toLex (k, toLex (e, m)) < toLex (k, toLex (f, n)) ↔ e < f ∨ e = f ∧ m < n
  := by
  rw [Prod.Lex.toLex_lt_toLex, Prod.Lex.toLex_lt_toLex]
  simp

/-- Among numbers of one sign the exponent decides, and then the mantissa. -/
theorem then_compares (k e f : ℤ) (m n : ℕ) :
  ((compare e f).then (compare m n)).Compares
    (toLex (k, toLex (e, (m : ℤ)))) (toLex (k, toLex (f, (n : ℤ))))
  := by
  rcases lt_trichotomy e f with h | rfl | h
  · rw [compare_lt_iff_lt.mpr h]
    apply lt_iff.mpr (Or.inl h)
  · rw [compare_eq_iff_eq.mpr rfl]
    rcases lt_trichotomy m n with h | rfl | h
    · rw [compare_lt_iff_lt.mpr h]
      apply lt_iff.mpr (Or.inr ⟨rfl, Int.ofNat_lt.mpr h⟩)
    · rw [compare_eq_iff_eq.mpr rfl]
      rfl
    · rw [compare_gt_iff_gt.mpr h]
      apply lt_iff.mpr (Or.inr ⟨rfl, Int.ofNat_lt.mpr h⟩)
  · rw [compare_gt_iff_gt.mpr h]
    apply lt_iff.mpr (Or.inl h)

theorem lt_neg_iff {k l e f m n : ℤ} :
  toLex (k, toLex (-e, -m)) < toLex (k, toLex (-f, -n))
    ↔ toLex (l, toLex (f, n)) < toLex (l, toLex (e, m))
  := by
  rw [lt_iff, lt_iff]
  omega

/-- Numbers of the other sign stand in the reverse order. -/
theorem compares_neg {o : Ordering} {k l e f m n : ℤ}
    (h : o.Compares (toLex (l, toLex (e, m))) (toLex (l, toLex (f, n)))) :
  o.swap.Compares (toLex (k, toLex (-e, -m))) (toLex (k, toLex (-f, -n)))
  := by
  cases o with
  | lt => apply lt_neg_iff.mpr h
  | eq =>
    simp only [Ordering.Compares, toLex_inj, Prod.mk.injEq] at h
    obtain ⟨-, rfl, rfl⟩ := h
    rfl
  | gt => apply lt_neg_iff.mpr h

/-- Numbers compare as their ranks. -/
theorem exists_compares {u v : UnpackedFloat} (hu : u.isNaN = false) (hv : v.isNaN = false) :
  ∃ o, u.compare v = some o ∧ o.Compares (rank u) (rank v)
  := by
  -- The first component of the ranks decides, except between finite numbers of one sign.
  cases u with
  | notANumber => cases hu
  | infinity s =>
    cases v with
    | notANumber => cases hv
    | infinity t =>
      cases s <;> cases t
      · use .eq, rfl
        rfl
      · use .lt, rfl, rank_lt (by decide)
      · use .gt, rfl, rank_lt (by decide)
      · use .eq, rfl
        rfl
    | zero t =>
      cases s
      · use .lt, rfl, rank_lt (by decide)
      · use .gt, rfl, rank_lt (by decide)
    | finite t n f hn =>
      cases s <;> cases t
      · use .lt, rfl, rank_lt (by decide)
      · use .lt, rfl, rank_lt (by decide)
      · use .gt, rfl, rank_lt (by decide)
      · use .gt, rfl, rank_lt (by decide)
  | zero s =>
    cases v with
    | notANumber => cases hv
    | infinity t =>
      cases t
      · use .gt, rfl, rank_lt (by decide)
      · use .lt, rfl, rank_lt (by decide)
    | zero t =>
      use .eq, rfl
      rfl
    | finite t n f hn =>
      cases t
      · use .gt, rfl, rank_lt (by decide)
      · use .lt, rfl, rank_lt (by decide)
  | finite s m e hm =>
    cases v with
    | notANumber => cases hv
    | infinity t =>
      cases s <;> cases t
      · use .gt, rfl, rank_lt (by decide)
      · use .lt, rfl, rank_lt (by decide)
      · use .gt, rfl, rank_lt (by decide)
      · use .lt, rfl, rank_lt (by decide)
    | zero t =>
      cases s
      · use .lt, rfl, rank_lt (by decide)
      · use .gt, rfl, rank_lt (by decide)
    | finite t n f hn =>
      cases s <;> cases t
      · apply Exists.intro
        use rfl, compares_neg (then_compares 1 e f m n)
      · use .lt, rfl, rank_lt (by decide)
      · use .gt, rfl, rank_lt (by decide)
      · apply Exists.intro
        use rfl, then_compares 1 e f m n

/-- Only numbers can be compared. -/
theorem isNaN_of_compare {u v : UnpackedFloat} {o : Ordering} (h : u.compare v = some o) :
  u.isNaN = false ∧ v.isNaN = false
  := by
  constructor
  · cases u with
    | notANumber => cases h
    | infinity | zero | finite => rfl
  · cases v with
    | notANumber => cases u <;> cases h
    | infinity | zero | finite => rfl

/-- The rank of a floating-point number. -/
def floatRank (x : Float) : ℤ ×ₗ ℤ ×ₗ ℤ :=
  rank x.toModel.unpack

variable {x y : Float}

/-- Two numbers compare as their ranks do. -/
theorem floatRank_compares (hx : x.isNaN = false) (hy : y.isNaN = false) :
  ∃ o, x.toModel.unpack.compare y.toModel.unpack = some o
    ∧ o.Compares (floatRank x) (floatRank y)
  := exists_compares hx hy

/-- A number is less than another exactly when its rank is. -/
theorem lt_iff_floatRank_lt (hx : x.isNaN = false) (hy : y.isNaN = false) :
  x < y ↔ floatRank x < floatRank y
  := by
  obtain ⟨o, ho, hcompares⟩ := floatRank_compares hx hy
  rw [← hcompares.eq_lt]
  apply decide_eq_true_iff.trans
  change (x.toModel.unpack.compare y.toModel.unpack == some .lt) = true ↔ _
  rw [ho, beq_iff_eq, Option.some_inj]

/-- A number is at most another exactly when its rank is. -/
theorem le_iff_floatRank_le (hx : x.isNaN = false) (hy : y.isNaN = false) :
  x ≤ y ↔ floatRank x ≤ floatRank y
  := by
  obtain ⟨o, ho, hcompares⟩ := floatRank_compares hx hy
  rw [← hcompares.ne_gt]
  apply decide_eq_true_iff.trans
  change (x.toModel.unpack.compare y.toModel.unpack).any (·.isLE) = true ↔ _
  rw [ho]
  cases o <;> decide

/-- Only a number is greater than anything. -/
theorem isNaN_of_lt (h : x < y) :
  y.isNaN = false
  := by
  have hlt : (x.toModel.unpack.compare y.toModel.unpack == some .lt) = true := of_decide_eq_true h
  apply (isNaN_of_compare (beq_iff_eq.mp hlt)).2

/-- Only numbers are at most as great as anything. -/
theorem isNaN_of_le (h : x ≤ y) :
  x.isNaN = false ∧ y.isNaN = false
  := by
  have hle : (x.toModel.unpack.compare y.toModel.unpack).any (·.isLE) = true := of_decide_eq_true h
  obtain ⟨o, ho, -⟩ := (Option.any_eq_true _ _).mp hle
  apply isNaN_of_compare ho

/-- The order of doubles is transitive, whether they are numbers or not. -/
theorem float_le_trans {z : Float} (hxy : x ≤ y) (hyz : y ≤ z) :
  x ≤ z
  := by
  obtain ⟨hx, hy⟩ := isNaN_of_le hxy
  obtain ⟨-, hz⟩ := isNaN_of_le hyz
  rw [le_iff_floatRank_le hx hy] at hxy
  rw [le_iff_floatRank_le hy hz] at hyz
  rw [le_iff_floatRank_le hx hz]
  apply le_trans hxy hyz

/-- Numbers are equal when neither is greater; the two zeros are. -/
theorem beq_iff_le_and_le (hx : x.isNaN = false) (hy : y.isNaN = false) :
  x == y ↔ x ≤ y ∧ y ≤ x
  := by
  obtain ⟨o, ho, hcompares⟩ := floatRank_compares hx hy
  rw [le_iff_floatRank_le hx hy, le_iff_floatRank_le hy hx, ← le_antisymm_iff, ← hcompares.eq_eq]
  change (x.toModel.unpack.compare y.toModel.unpack == some .eq) = true ↔ _
  rw [ho, beq_iff_eq, Option.some_inj]

end FloatOrder

open FloatOrder

/-- The floating-point numbers that are numbers are totally preordered. -/
theorem Score.isTotalOn_float :
  Score.IsTotalOn fun x : Float => x.isNaN = false
  := by
  constructor
  · intro x y hx hy
    simp only [Score.le, decide_eq_true_eq]
    rw [le_iff_floatRank_le hx hy, le_iff_floatRank_le hy hx]
    apply le_total
  · intro x y z hx hy hz hxy hyz
    simp only [Score.le, decide_eq_true_eq] at hxy hyz ⊢
    rw [le_iff_floatRank_le hx hy] at hxy
    rw [le_iff_floatRank_le hy hz] at hyz
    rw [le_iff_floatRank_le hx hz]
    apply le_trans hxy hyz
  · intro x y hx hy
    simp only [Score.le, Score.lt, decide_eq_true_eq]
    rw [lt_iff_floatRank_lt hx hy, le_iff_floatRank_le hy hx, not_le]

end Cohesion
