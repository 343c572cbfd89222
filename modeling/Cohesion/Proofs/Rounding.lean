import Mathlib.Algebra.Order.Field.Basic
import Mathlib.Algebra.Order.Ring.Rat
import Mathlib.Tactic.Linarith
import Mathlib.Tactic.Positivity
import Mathlib.Tactic.Ring
import Mathlib.Tactic.Use

/-!
# Rounding to 53 binary digits

An operation on floating-point numbers keeps of its exact result a mantissa and two more bits, and
rounds these.  `Represents em x` tells which fractions `x` the mantissa and the two bits stand for:
shifting them by one place halves the fraction, and of two fractions the greater one is not rounded
to less.  `RoundsTo x m e` says that the positive fraction `x` rounds to `m * 2 ^ e`, where `m` has
53 binary digits.  Rounding preserves the order, `RoundsTo.le`, and is what the operations compute,
`exists_roundsTo`.
-/

namespace Cohesion

namespace Rounding

open Float.Model Float.Model.UnpackedFloat

/-! ### Residual bits -/

/-- The mantissa is the integer part of the fraction `x`.  The round bit tells whether `x` is at
least half a unit above it, and the sticky bit whether it is anything but none or half a unit. -/
structure Represents (em : ExtendedMantissa) (x : ℚ) : Prop where
  le : em.mantissa ≤ x
  lt : x < em.mantissa + 1
  roundBit_iff : em.roundBit ↔ em.mantissa + 1 / 2 ≤ x
  stickyBit_iff : em.stickyBit ↔ x ≠ em.mantissa ∧ x ≠ em.mantissa + 1 / 2

variable {em em' : ExtendedMantissa} {x y : ℚ}

/-- A mantissa taken as exact represents itself. -/
theorem represents_exact (m : ℕ) :
  Represents (.ofMantissaAndAccuracy m .exact) m
  := by
  constructor
  · apply le_refl
  · apply lt_add_one
  · apply iff_of_false Bool.false_ne_true
    apply not_le_of_gt
    apply lt_add_of_pos_right
    apply one_half_pos
  · apply iff_of_false Bool.false_ne_true
    rintro ⟨hne, -⟩
    apply hne rfl

theorem ofMantissaAndAccuracy_inexact (m : ℕ) (o : Ordering) :
  ExtendedMantissa.ofMantissaAndAccuracy m (.inexact o) = ⟨m, o != .lt, o != .eq⟩
  := by cases o <;> rfl

/-- A mantissa with the comparison of the rest with half a unit. -/
theorem represents_inexact {m : ℕ} {o : Ordering} (hgt : m < x) (hlt : x < m + 1)
    (ho : o.Compares x (m + 1 / 2)) :
  Represents (.ofMantissaAndAccuracy m (.inexact o)) x
  := by
  rw [ofMantissaAndAccuracy_inexact]
  constructor
  · apply hgt.le
  · apply hlt
  · apply bne_iff_ne.trans ho.ne_lt
  · apply bne_iff_ne.trans
    rw [ne_eq, ho.eq_eq]
    apply (and_iff_right hgt.ne').symm

/-- The quotient of two numbers, with the comparison of the remainder with half the divisor. -/
theorem represents_div (n : ℕ) {d : ℕ} (hd : 0 < d) :
  Represents (.ofMantissaAndAccuracy (n / d) (accuracyOfFraction (n % d) d)) (n / d)
  := by
  have hpos : (0 : ℚ) < d := Nat.cast_pos.mpr hd
  have hn : (n : ℚ) = (n / d : ℕ) * d + (n % d : ℕ) := by exact_mod_cast (Nat.div_add_mod' n d).symm
  rw [accuracyOfFraction]
  split
  · rename_i hzero
    rw [hzero, Nat.cast_zero, add_zero] at hn
    rw [hn, mul_div_cancel_right₀ _ hpos.ne']
    apply represents_exact
  · rename_i hzero
    have hgt : (0 : ℚ) < (n % d : ℕ) := Nat.cast_pos.mpr (Nat.pos_of_ne_zero hzero)
    have hlt : ((n % d : ℕ) : ℚ) < d := Nat.cast_lt.mpr (Nat.mod_lt n hd)
    apply represents_inexact
    · rw [lt_div_iff₀ hpos]
      linarith
    · rw [div_lt_iff₀ hpos]
      linarith
    · rcases lt_trichotomy (2 * (n % d)) d with h | h | h
      · rw [compare_lt_iff_lt.mpr h]
        have hhalf : 2 * ((n % d : ℕ) : ℚ) < d := by exact_mod_cast h
        apply (div_lt_iff₀ hpos).mpr
        linarith
      · rw [compare_eq_iff_eq.mpr h]
        have hhalf : 2 * ((n % d : ℕ) : ℚ) = d := by exact_mod_cast h
        apply (div_eq_iff hpos.ne').mpr
        linarith
      · rw [compare_gt_iff_gt.mpr h]
        have hhalf : (d : ℚ) < 2 * (n % d : ℕ) := by exact_mod_cast h
        apply (lt_div_iff₀ hpos).mpr
        linarith

/-- A represented number is its mantissa exactly when neither of the lost bits is set. -/
theorem Represents.eq_mantissa_iff (h : Represents em x) :
  x = em.mantissa ↔ ¬ (em.roundBit || em.stickyBit)
  := by
  rw [Bool.or_eq_true, h.roundBit_iff, h.stickyBit_iff]
  constructor
  · rintro rfl
    rintro (hround | ⟨hne, -⟩)
    · linarith
    · apply hne rfl
  · intro hneither
    obtain ⟨hround, hsticky⟩ := not_or.mp hneither
    by_contra hne
    apply hsticky ⟨hne, ((not_le.mp hround).ne)⟩

/-- One place to the right stands for half the fraction. -/
theorem Represents.shiftRightOne (h : Represents em x) :
  Represents em.shiftRightOne (x / 2)
  := by
  have hm : (em.mantissa : ℚ) = (em.mantissa / 2 : ℕ) * 2 + (em.mantissa % 2 : ℕ) := by
    exact_mod_cast (Nat.div_add_mod' em.mantissa 2).symm
  have hround : em.shiftRightOne.roundBit ↔ em.mantissa % 2 ≠ 0 := bne_iff_ne
  have hsticky : em.shiftRightOne.stickyBit ↔ x ≠ em.mantissa := by
    rw [ne_eq, h.eq_mantissa_iff, not_not]
    rfl
  have hle := h.le
  have hlt := h.lt
  -- The lowest bit of the mantissa tells in which half of the next unit the fraction lies.
  rcases Nat.mod_two_eq_zero_or_one em.mantissa with hmod | hmod
  · rw [hmod, Nat.cast_zero, add_zero] at hm
    constructor
    · change ((em.mantissa / 2 : ℕ) : ℚ) ≤ x / 2
      linarith
    · change x / 2 < (em.mantissa / 2 : ℕ) + 1
      linarith
    · rw [hround]
      apply iff_of_false (not_not.mpr hmod)
      change ¬ ((em.mantissa / 2 : ℕ) : ℚ) + 1 / 2 ≤ x / 2
      linarith
    · rw [hsticky]
      have hhalf : x / 2 ≠ (em.mantissa / 2 : ℕ) + 1 / 2 := by
        apply ne_of_lt
        linarith
      apply Iff.trans _ (and_iff_left hhalf).symm
      apply not_congr
      change x = em.mantissa ↔ x / 2 = (em.mantissa / 2 : ℕ)
      rw [hm, div_eq_iff two_ne_zero]
  · rw [hmod, Nat.cast_one] at hm
    constructor
    · change ((em.mantissa / 2 : ℕ) : ℚ) ≤ x / 2
      linarith
    · change x / 2 < (em.mantissa / 2 : ℕ) + 1
      linarith
    · rw [hround]
      apply iff_of_true (hmod ▸ one_ne_zero)
      change ((em.mantissa / 2 : ℕ) : ℚ) + 1 / 2 ≤ x / 2
      linarith
    · rw [hsticky]
      have hnone : x / 2 ≠ (em.mantissa / 2 : ℕ) := by
        apply ne_of_gt
        linarith
      apply Iff.trans _ (and_iff_right hnone).symm
      apply not_congr
      change x = em.mantissa ↔ x / 2 = (em.mantissa / 2 : ℕ) + 1 / 2
      rw [hm, div_eq_iff two_ne_zero, add_mul, one_div_mul_cancel two_ne_zero]

/-- Shifting a mantissa to the right represents the number divided by the power of two. -/
theorem Represents.shiftRight (h : Represents em x) (k : ℕ) :
  Represents (em >>> k) (x / 2 ^ k)
  := by
  induction k with
  | zero =>
    rw [pow_zero, div_one]
    apply h
  | succ k ih =>
    rw [pow_succ, ← div_div]
    apply ih.shiftRightOne

/-! ### Rounding a mantissa -/

/-- A number less than half above its mantissa is rounded down. -/
theorem Represents.roundedMantissa_of_lt (h : Represents em x) (hx : x < em.mantissa + 1 / 2) :
  em.roundedMantissa = em.mantissa
  := by
  have hround := mt h.roundBit_iff.mp (not_le_of_gt hx)
  obtain ⟨m, round, sticky⟩ := em
  cases Bool.eq_false_of_not_eq_true hround
  cases sticky <;> rfl

/-- Half a unit is rounded to the even one of its two neighbours. -/
theorem Represents.roundedMantissa_of_eq (h : Represents em x) (hx : x = em.mantissa + 1 / 2) :
  em.roundedMantissa = em.mantissa + em.mantissa % 2
  := by
  have hround := h.roundBit_iff.mpr hx.ge
  have hsticky : ¬ em.stickyBit := fun hsticky => (h.stickyBit_iff.mp hsticky).2 hx
  obtain ⟨m, round, sticky⟩ := em
  cases hround
  cases Bool.eq_false_of_not_eq_true hsticky
  rfl

/-- A number more than half above its mantissa is rounded up. -/
theorem Represents.roundedMantissa_of_gt (h : Represents em x) (hx : em.mantissa + 1 / 2 < x) :
  em.roundedMantissa = em.mantissa + 1
  := by
  have hround := h.roundBit_iff.mpr hx.le
  have hsticky : em.stickyBit := by
    apply h.stickyBit_iff.mpr
    constructor
    · linarith
    · apply hx.ne'
  obtain ⟨m, round, sticky⟩ := em
  cases hround
  cases hsticky
  rfl

/-- Rounding gives the mantissa or the one after it. -/
theorem Represents.roundedMantissa_bounds (h : Represents em x) :
  em.mantissa ≤ em.roundedMantissa ∧ em.roundedMantissa ≤ em.mantissa + 1
  := by
  rcases lt_trichotomy x (em.mantissa + 1 / 2) with hx | hx | hx
  · rw [h.roundedMantissa_of_lt hx]
    omega
  · rw [h.roundedMantissa_of_eq hx]
    omega
  · rw [h.roundedMantissa_of_gt hx]
    omega

/-- The greater of two fractions is not rounded to less. -/
theorem Represents.roundedMantissa_le (h : Represents em x) (h' : Represents em' y) (hle : x ≤ y) :
  em.roundedMantissa ≤ em'.roundedMantissa
  := by
  obtain ⟨hlow, hhigh⟩ := h.roundedMantissa_bounds
  obtain ⟨hlow', hhigh'⟩ := h'.roundedMantissa_bounds
  rcases lt_trichotomy em.mantissa em'.mantissa with hlt | heq | hgt
  · omega
  · rcases lt_trichotomy x (em.mantissa + 1 / 2) with hx | hx | hx
    · rw [h.roundedMantissa_of_lt hx]
      omega
    · rw [h.roundedMantissa_of_eq hx]
      rcases (heq ▸ hx ▸ hle).eq_or_lt with hy | hy
      · rw [h'.roundedMantissa_of_eq hy.symm, heq]
      · rw [h'.roundedMantissa_of_gt hy]
        omega
    · rw [h'.roundedMantissa_of_gt (heq ▸ hx.trans_le hle)]
      omega
  · have hcast : (em'.mantissa : ℚ) + 1 ≤ em.mantissa := by exact_mod_cast hgt
    apply absurd (h.le.trans hle) (not_le_of_gt (h'.lt.trans_le hcast))

/-! ### Rounding to a mantissa and an exponent -/

/-- A rounded mantissa that has one digit too many has only zeros after the first one. -/
def carry (r : ℕ) (f : ℤ) : ℕ × ℤ :=
  if r = 2 ^ 53 then (2 ^ 52, f + 1) else (r, f)

/-- The positive fraction `x` rounds to `m * 2 ^ e`: for the exponent at which its integer part has
53 binary digits, the mantissa is rounded. -/
def RoundsTo (x : ℚ) (m : ℕ) (e : ℤ) : Prop :=
  ∃ em f, Represents em (x / 2 ^ f) ∧ 2 ^ 52 ≤ em.mantissa ∧ em.mantissa < 2 ^ 53
    ∧ carry em.roundedMantissa f = (m, e)

variable {m n : ℕ} {e f : ℤ}

/-- After the carry a mantissa has fifty-three bits. -/
theorem carry_bounds {r : ℕ} (hlow : 2 ^ 52 ≤ r) (hhigh : r ≤ 2 ^ 53)
    (h : carry r f = (m, e)) :
  2 ^ 52 ≤ m ∧ m < 2 ^ 53
  := by
  rw [carry] at h
  split at h
  · cases h
    omega
  · cases h
    omega

/-- What a number is rounded to has a mantissa of fifty-three bits. -/
theorem RoundsTo.bounds (h : RoundsTo x m e) :
  2 ^ 52 ≤ m ∧ m < 2 ^ 53
  := by
  obtain ⟨em, f, hrepresents, hlow, hhigh, hcarry⟩ := h
  have hbounds := hrepresents.roundedMantissa_bounds
  apply carry_bounds (by omega) (by omega) hcarry

/-- A fraction with 53 binary digits rounds to itself. -/
theorem roundsTo_self (hlow : 2 ^ 52 ≤ m) (hhigh : m < 2 ^ 53) (e : ℤ) :
  RoundsTo (m * 2 ^ e) m e
  := by
  use .ofMantissaAndAccuracy m .exact, e
  rw [mul_div_cancel_right₀ _ (zpow_ne_zero e two_ne_zero)]
  use represents_exact m, hlow, hhigh
  apply if_neg hhigh.ne

/-- A number represented by fifty-three bits lies between the powers of two at their ends. -/
theorem Represents.window {f : ℤ} (h : Represents em (x / 2 ^ f)) (hlow : 2 ^ 52 ≤ em.mantissa)
    (hhigh : em.mantissa < 2 ^ 53) :
  2 ^ (52 + f) ≤ x ∧ x < 2 ^ (53 + f)
  := by
  have hpos : (0 : ℚ) < 2 ^ f := zpow_pos two_pos f
  have hlow' : (2 ^ 52 : ℚ) ≤ em.mantissa := by exact_mod_cast hlow
  have hhigh' : (em.mantissa : ℚ) + 1 ≤ 2 ^ 53 := by exact_mod_cast hhigh
  rw [zpow_add₀ two_ne_zero, zpow_add₀ two_ne_zero]
  constructor
  · apply (le_div_iff₀ hpos).mp (hlow'.trans h.le)
  · apply (div_lt_iff₀ hpos).mp (h.lt.trans_le hhigh')

/-- The exponent of a fraction between two powers of two. -/
theorem RoundsTo.exponent_bounds (h : RoundsTo x m e) {k l : ℤ} (hlow : 2 ^ k ≤ x)
    (hhigh : x < 2 ^ l) :
  k ≤ e + 52 ∧ e + 52 ≤ l
  := by
  obtain ⟨em, f, hrepresents, hlow', hhigh', hcarry⟩ := h
  obtain ⟨hleft, hright⟩ := hrepresents.window hlow' hhigh'
  have hk : k < 53 + f := (zpow_lt_zpow_iff_right₀ one_lt_two).mp (hlow.trans_lt hright)
  have hl : 52 + f < l := (zpow_lt_zpow_iff_right₀ one_lt_two).mp (hleft.trans_lt hhigh)
  rw [carry] at hcarry
  split at hcarry
  · cases hcarry
    omega
  · cases hcarry
    omega

/-- Rounding preserves the order. -/
theorem RoundsTo.le (h : RoundsTo x m e) (h' : RoundsTo y n f) (hle : x ≤ y) :
  e < f ∨ e = f ∧ m ≤ n
  := by
  obtain ⟨em, e', hrepresents, hlow, hhigh, hcarry⟩ := h
  obtain ⟨em', f', hrepresents', hlow', hhigh', hcarry'⟩ := h'
  have hbounds := hrepresents.roundedMantissa_bounds
  have hbounds' := hrepresents'.roundedMantissa_bounds
  have hexponents : 52 + e' < 53 + f' := by
    obtain ⟨hleft, -⟩ := hrepresents.window hlow hhigh
    obtain ⟨-, hright⟩ := hrepresents'.window hlow' hhigh'
    apply (zpow_lt_zpow_iff_right₀ one_lt_two).mp ((hleft.trans hle).trans_lt hright)
  have hrounded : e' = f' → em.roundedMantissa ≤ em'.roundedMantissa := by
    rintro rfl
    apply hrepresents.roundedMantissa_le hrepresents'
    apply div_le_div_of_nonneg_right hle (zpow_pos two_pos e').le
  rw [carry] at hcarry hcarry'
  split at hcarry <;> split at hcarry' <;> cases hcarry <;> cases hcarry' <;> omega

/-- A fraction rounds to one mantissa and exponent only. -/
theorem RoundsTo.unique (h : RoundsTo x m e) (h' : RoundsTo x n f) :
  m = n ∧ e = f
  := by
  have hle := h.le h' le_rfl
  have hge := h'.le h le_rfl
  omega

/-! ### What the operations compute -/

/-- A mantissa of 53 or more digits is shifted until it has 53, if the exponent is in range. -/
theorem shiftToTargetExponent_eq {k : ℕ} (hm : m.log2 = 52 + k) (he : -1074 ≤ e + k)
    (acc : Accuracy) :
  shiftToTargetExponent .binary64 m e acc
    = (ExtendedMantissa.ofMantissaAndAccuracy m acc >>> k, e + k)
  := by
  have htarget : Format.binary64.targetExponent (totalExponent m e) = e + k := by
    rw [Format.targetExponent, totalExponent, hm]
    change max (_ - 53) (-1074) = _
    omega
  have hshift : (e + k - e).toNat = k := by omega
  rw [shiftToTargetExponent, htarget, shiftToExponent, hshift]

/-- Shifting to the right divides the mantissa by the power of two. -/
theorem mantissa_shiftRight (em : ExtendedMantissa) (k : ℕ) :
  (em >>> k).mantissa = em.mantissa / 2 ^ k
  := by
  induction k with
  | zero => rw [pow_zero, Nat.div_one]; rfl
  | succ k ih =>
    rw [pow_succ, ← Nat.div_div_eq_div_mul, ← ih]
    rfl

theorem mantissa_ofMantissaAndAccuracy (m : ℕ) (acc : Accuracy) :
  (ExtendedMantissa.ofMantissaAndAccuracy m acc).mantissa = m
  := by
  cases acc with
  | exact => rfl
  | inexact o => rw [ofMantissaAndAccuracy_inexact]

/-- The second shift does nothing but carry. -/
theorem shiftToTargetExponent_exact {r : ℕ} (hlow : 2 ^ 52 ≤ r) (hhigh : r ≤ 2 ^ 53)
    (hf : -1074 ≤ f) :
  ((shiftToTargetExponent .binary64 r f .exact).1.mantissa,
      (shiftToTargetExponent .binary64 r f .exact).2)
    = carry r f
  := by
  rw [carry]
  split
  · rename_i heq
    have hlog : r.log2 = 52 + 1 := heq ▸ Nat.log2_two_pow
    rw [shiftToTargetExponent_eq hlog (by omega), mantissa_shiftRight, heq]
    rfl
  · rename_i hne
    have hlog : r.log2 = 52 + 0 := (Nat.log2_eq_iff (by omega)).mpr (by omega)
    rw [shiftToTargetExponent_eq hlog (by omega), mantissa_shiftRight]
    simp [mantissa_ofMantissaAndAccuracy]

/-- Rounding a mantissa of 53 or more digits rounds the fraction for which it stands. -/
theorem exists_roundsTo (s : Sign) {acc : Accuracy}
    (hx : Represents (.ofMantissaAndAccuracy m acc) x) (hm : 52 ≤ m.log2)
    (he : -1022 ≤ m.log2 + e) :
  ∃ n f, ∃ hn : 0 < n, roundWithAccuracy .binary64 s m e acc = .finite s n f hn
    ∧ RoundsTo (x * 2 ^ e) n f
  := by
  obtain ⟨k, hk⟩ := Nat.exists_eq_add_of_le hm
  have hem := hx.shiftRight k
  have hmantissa := mantissa_shiftRight (.ofMantissaAndAccuracy m acc) k
  rw [mantissa_ofMantissaAndAccuracy] at hmantissa
  have hfirst := shiftToTargetExponent_eq hk (e := e) (by omega) acc
  -- From here on only the mantissa of 53 digits and what it represents matter.
  generalize ExtendedMantissa.ofMantissaAndAccuracy m acc >>> k = em at hem hmantissa hfirst
  have hne : m ≠ 0 := by
    rintro rfl
    rw [Nat.log2_zero] at hm
    omega
  obtain ⟨hleft, hright⟩ := (Nat.log2_eq_iff hne).mp hk
  have hlow : 2 ^ 52 ≤ em.mantissa := by
    rw [hmantissa, Nat.le_div_iff_mul_le (Nat.two_pow_pos k), ← pow_add]
    apply hleft
  have hhigh : em.mantissa < 2 ^ 53 := by
    rw [hmantissa, Nat.div_lt_iff_lt_mul (Nat.two_pow_pos k), ← pow_add]
    apply hright.trans_eq
    congr 1
    omega
  have hrounded := hem.roundedMantissa_bounds
  have hsecond : _ = carry em.roundedMantissa (e + k) :=
    shiftToTargetExponent_exact (by omega) (by omega) (by omega)
  cases hcarry : carry em.roundedMantissa (e + k) with
  | mk n f =>
    have hbounds := carry_bounds (by omega) (by omega) hcarry
    rw [hcarry, Prod.mk.injEq] at hsecond
    have hn : 0 < n := by omega
    have hround : roundWithAccuracy .binary64 s m e acc
        = if h : n = 0 then .zero s else .finite s n f (Nat.pos_of_ne_zero h) := by
      rw [roundWithAccuracy, hfirst]
      obtain ⟨rfl, rfl⟩ := hsecond
      rfl
    use n, f, hn
    constructor
    · rw [hround, dif_neg hn.ne']
    · use em, e + k
      rw [zpow_add₀ two_ne_zero, mul_comm x, mul_div_mul_left _ _ (zpow_ne_zero e two_ne_zero),
        zpow_natCast]
      use hem

end Rounding

end Cohesion
