import Cohesion.Proofs.Canonical

/-!
# Floating-point numbers from zero on

`FloatOrder.IsAmount x m e` says that the number `x` is `m * 2 ^ e`, or infinity if this is too
great.  Amounts are ordered by exponent and mantissa, `FloatOrder.IsAmount.le`, so what is rounded
from more is more: products and quotients of finite amounts grow with them,
`FloatOrder.IsFiniteAmount.mul_le_mul` and `FloatOrder.IsFiniteAmount.div_le_div`.
-/

namespace Cohesion

namespace FloatOrder

open Float.Model Float.Model.UnpackedFloat Rounding

variable {x y a : Float} {m n k : ℕ} {e f g : ℤ}

/-- The number `x` is `m * 2 ^ e`, or infinity if this is too great. -/
structure IsAmount (x : Float) (m : ℕ) (e : ℤ) : Prop where
  canonical : IsCanonical m e
  unpack_eq : ∃ s, (m ≠ 0 → s = .positive)
    ∧ x.toModel.unpack = if e ≤ 971 then outcome s m e else .infinity s

theorem IsAmount.isNaN (h : IsAmount x m e) :
  x.isNaN = false
  := by
  obtain ⟨-, s, -, hunpack⟩ := h
  change x.toModel.unpack.isNaN = false
  rw [hunpack]
  by_cases he : e ≤ 971
  · rw [if_pos he]
    apply (isFinite_outcome s m e).2
  · rw [if_neg he]
    rfl

/-- The rank of an amount is read off its mantissa and exponent. -/
theorem IsAmount.floatRank_eq (h : IsAmount x m e) :
  floatRank x = if m = 0 then toLex (0, toLex (0, 0))
    else if e ≤ 971 then toLex (1, toLex (e, (m : ℤ))) else toLex (2, toLex (0, 0))
  := by
  obtain ⟨hcanonical, s, hs, hunpack⟩ := h
  rw [floatRank, hunpack]
  by_cases hm : m = 0
  · rw [if_pos (by have := hcanonical.eq_least_or; omega), if_pos hm, hm, outcome_zero]
    rfl
  · obtain rfl := hs hm
    rw [if_neg hm, outcome_of_pos _ (Nat.pos_of_ne_zero hm)]
    by_cases he : e ≤ 971
    · rw [if_pos he, if_pos he, rank_positive]
    · rw [if_neg he, if_neg he]
      rfl

/-- Amounts are ordered by exponent and mantissa. -/
theorem IsAmount.le (hx : IsAmount x m e) (hy : IsAmount y n f) (h : e < f ∨ e = f ∧ m ≤ n) :
  x ≤ y
  := by
  rw [le_iff_floatRank_le hx.isNaN hy.isNaN, hx.floatRank_eq, hy.floatRank_eq, ← not_lt]
  have hleast := hx.canonical.least_le
  have hn := hy.canonical.eq_least_or
  by_cases hm0 : m = 0
  · rw [if_pos hm0]
    split
    · apply lt_irrefl
    · split
      · apply (rank_lt (by decide)).not_gt
      · apply (rank_lt (by decide)).not_gt
  · rw [if_neg hm0, if_neg (by omega)]
    split
    · split
      · rw [lt_iff]
        omega
      · omega
    · split
      · apply (rank_lt (by decide)).not_gt
      · apply lt_irrefl

/-- The greater one of two amounts has the greater exponent or mantissa, unless both are
infinite. -/
theorem IsAmount.of_le (hx : IsAmount x m e) (hy : IsAmount y n f) (he : f ≤ 971) (h : x ≤ y) :
  m = 0 ∨ e < f ∨ e = f ∧ m ≤ n
  := by
  rw [le_iff_floatRank_le hx.isNaN hy.isNaN, hx.floatRank_eq, hy.floatRank_eq, ← not_lt] at h
  by_cases hm0 : m = 0
  · exact Or.inl hm0
  · right
    rw [if_neg hm0, if_pos he] at h
    split at h
    · split at h
      · apply absurd (rank_lt (by decide)) h
      · apply absurd (rank_lt (by decide)) h
    · split at h
      · rw [lt_iff] at h
        omega
      · apply absurd (rank_lt (by decide)) h

/-- Amounts are ordered as the numbers that they are. -/
theorem IsAmount.value_le (hx : IsAmount x m e) (hy : IsAmount y n f) (hf : f ≤ 971) (h : x ≤ y) :
  (m * 2 ^ e : ℚ) ≤ n * 2 ^ f
  := by
  obtain rfl | horder := hx.of_le hy hf h
  · rw [Nat.cast_zero, zero_mul]
    positivity
  · apply hx.canonical.mul_zpow_le hy.canonical horder

/-- The number is finite and at least zero. -/
structure IsFiniteAmount (x : Float) : Prop where
  isFinite : x.isFinite
  zero_le : 0.0 ≤ x

/-- A finite amount has a mantissa and an exponent within the range of the format. -/
theorem IsFiniteAmount.exists_isAmount (h : IsFiniteAmount x) :
  ∃ m e, IsAmount x m e ∧ e ≤ 971
  := by
  obtain ⟨s, m, e, hcanonical, he, hunpack⟩ :=
    exists_unpack_eq_outcome x.toModel.toBits.toBitVec h.isFinite
  change x.toModel.unpack = _ at hunpack
  have hsign : m ≠ 0 → s = .positive := by
    intro hm
    obtain ⟨hzero, hx⟩ := isNaN_of_le h.zero_le
    have hle := h.zero_le
    rw [outcome_of_pos s (Nat.pos_of_ne_zero hm)] at hunpack
    rw [le_iff_floatRank_le hzero hx, floatRank, floatRank, hunpack] at hle
    cases s with
    | positive => rfl
    | negative => apply absurd hle (rank_lt (by decide)).not_ge
  use m, e
  constructor
  · use hcanonical, s, hsign
    rw [if_pos he, hunpack]
  · apply he

theorem isAmount_zero :
  IsAmount 0.0 0 (-1074)
  := ⟨isCanonical_zero, .positive, fun _ => rfl, rfl⟩

theorem isAmount_one :
  IsAmount 1.0 (2 ^ 52) (-52)
  := ⟨⟨by decide, by decide, Or.inr le_rfl⟩, .positive, fun _ => rfl, rfl⟩

/-- An amount whose exponent is within the range is finite. -/
theorem IsAmount.isFiniteAmount (h : IsAmount x m e) (he : e ≤ 971) :
  IsFiniteAmount x
  := by
  constructor
  · obtain ⟨-, s, -, hunpack⟩ := h
    change x.toModel.unpack.isFinite = true
    rw [hunpack, if_pos he]
    apply (isFinite_outcome s m e).1
  · apply isAmount_zero.le h
    have hleast := h.canonical.least_le
    omega

/-- An amount compared as at least one has a value of at least one. -/
theorem IsAmount.one_le_value (h : IsAmount x m e) (he : e ≤ 971) (hone : 1.0 ≤ x) :
  m ≠ 0 ∧ (1 : ℚ) ≤ m * 2 ^ e
  := by
  have hvalue : (1 : ℚ) ≤ m * 2 ^ e := by
    have hle := isAmount_one.value_le h he hone
    norm_num at hle
    apply hle
  constructor
  · rintro rfl
    norm_num at hvalue
  · apply hvalue

/-! ### Products and quotients of amounts -/

/-- What an operation makes of an exact result is the amount to which it rounds. -/
theorem isAmount_of_roundsInto {v : ℚ} {s : Sign} (hv : RoundsInto v m e)
    (hs : v ≠ 0 → s = .positive) (hx : x.toModel = Float.Model.pack (outcome s m e)) :
  IsAmount x m e
  := by
  use hv.isCanonical, s
  constructor
  · intro hm
    apply hs
    rintro rfl
    apply hm hv.eq_zero
  · rw [hx]
    apply unpack_pack_outcome s hv.isCanonical

/-- The product of two finite amounts is the amount that their product of values is rounded to. -/
theorem IsAmount.exists_mul (hx : IsAmount x m e) (he : e ≤ 971) (hy : IsAmount y n f)
    (hf : f ≤ 971) :
  ∃ k g, IsAmount (x * y) k g ∧ RoundsInto (m * 2 ^ e * (n * 2 ^ f)) k g
  := by
  obtain ⟨hm, s, hs, hxUnpack⟩ := hx
  obtain ⟨hn, t, ht, hyUnpack⟩ := hy
  obtain ⟨k, g, hmul, hrounds⟩ := hm.exists_mul_eq hn s t
  use k, g
  constructor
  · apply isAmount_of_roundsInto (s := s * t) hrounds
    · intro hv
      rw [hs, ht]
      · rfl
      · rintro rfl
        apply hv
        rw [Nat.cast_zero, zero_mul, mul_zero]
      · rintro rfl
        apply hv
        rw [Nat.cast_zero, zero_mul, zero_mul]
    · rw [if_pos he] at hxUnpack
      rw [if_pos hf] at hyUnpack
      rw [← hmul, ← hxUnpack, ← hyUnpack]
      rfl
  · apply hrounds

/-- The quotient of two finite amounts is the amount that their quotient of values is rounded to. -/
theorem IsAmount.exists_div (hx : IsAmount x m e) (he : e ≤ 971) (hy : IsAmount y n f)
    (hf : f ≤ 971) (hn : n ≠ 0) :
  ∃ k g, IsAmount (x / y) k g ∧ RoundsInto (m * 2 ^ e / (n * 2 ^ f)) k g
  := by
  obtain ⟨-, s, hs, hxUnpack⟩ := hx
  obtain ⟨-, t, ht, hyUnpack⟩ := hy
  obtain ⟨k, g, hdiv, hrounds⟩ := exists_div_eq hn m e f s t
  use k, g
  constructor
  · apply isAmount_of_roundsInto (s := s / t) hrounds
    · intro hv
      rw [hs, ht hn]
      · rfl
      · rintro rfl
        apply hv
        rw [Nat.cast_zero, zero_mul, zero_div]
    · rw [if_pos he] at hxUnpack
      rw [if_pos hf] at hyUnpack
      rw [← hdiv, ← hxUnpack, ← hyUnpack]
      rfl
  · apply hrounds

/-- A greater number makes a greater product. -/
theorem IsFiniteAmount.mul_le_mul (hx : IsFiniteAmount x) (hy : IsFiniteAmount y)
    (ha : IsFiniteAmount a) (h : x ≤ y) :
  x * a ≤ y * a
  := by
  obtain ⟨m, e, hm, he⟩ := hx.exists_isAmount
  obtain ⟨n, f, hn, hf⟩ := hy.exists_isAmount
  obtain ⟨k, g, hk, hg⟩ := ha.exists_isAmount
  obtain ⟨_, _, hxa, hxrounds⟩ := hm.exists_mul he hk hg
  obtain ⟨_, _, hya, hyrounds⟩ := hn.exists_mul hf hk hg
  apply hxa.le hya (hxrounds.le hyrounds _)
  apply mul_le_mul_of_nonneg_right (hm.value_le hn hf h)
  positivity

/-- A product of two finite amounts is a number, but it may be infinite. -/
theorem IsFiniteAmount.isNaN_mul (hx : IsFiniteAmount x) (ha : IsFiniteAmount a) :
  (x * a).isNaN = false
  := by
  obtain ⟨m, e, hm, he⟩ := hx.exists_isAmount
  obtain ⟨k, g, hk, hg⟩ := ha.exists_isAmount
  obtain ⟨_, _, hxa, -⟩ := hm.exists_mul he hk hg
  apply hxa.isNaN

/-- A product with one is not rounded. -/
theorem IsFiniteAmount.le_one_mul (h : IsFiniteAmount a) :
  a ≤ 1.0 * a
  := by
  obtain ⟨k, g, hk, hg⟩ := h.exists_isAmount
  obtain ⟨_, _, hproduct, hrounds⟩ := isAmount_one.exists_mul (by decide) hk hg
  apply hk.le hproduct (hk.canonical.roundsInto.le hrounds _)
  norm_num

/-- A greater number makes a greater quotient. -/
theorem IsFiniteAmount.div_le_div (hx : IsFiniteAmount x) (hy : IsFiniteAmount y)
    (ha : IsFiniteAmount a) (hone : 1.0 ≤ a) (h : x ≤ y) :
  x / a ≤ y / a
  := by
  obtain ⟨m, e, hm, he⟩ := hx.exists_isAmount
  obtain ⟨n, f, hn, hf⟩ := hy.exists_isAmount
  obtain ⟨k, g, hk, hg⟩ := ha.exists_isAmount
  obtain ⟨hk0, -⟩ := hk.one_le_value hg hone
  obtain ⟨_, _, hxa, hxrounds⟩ := hm.exists_div he hk hg hk0
  obtain ⟨_, _, hya, hyrounds⟩ := hn.exists_div hf hk hg hk0
  apply hxa.le hya (hxrounds.le hyrounds _)
  apply div_le_div_of_nonneg_right (hm.value_le hn hf h)
  positivity

/-- A quotient by a number from one on is not greater, and so finite. -/
theorem IsFiniteAmount.div (hx : IsFiniteAmount x) (ha : IsFiniteAmount a) (hone : 1.0 ≤ a) :
  IsFiniteAmount (x / a)
  := by
  obtain ⟨m, e, hm, he⟩ := hx.exists_isAmount
  obtain ⟨k, g, hk, hg⟩ := ha.exists_isAmount
  obtain ⟨hk0, hvalue⟩ := hk.one_le_value hg hone
  obtain ⟨_, _, hxa, hrounds⟩ := hm.exists_div he hk hg hk0
  have horder := hrounds.le hm.canonical.roundsInto (div_le_self (by positivity) hvalue)
  apply hxa.isFiniteAmount
  omega

end FloatOrder

end Cohesion
