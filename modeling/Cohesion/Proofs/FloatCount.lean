import Cohesion.Proofs.FloatOrder
import Cohesion.Proofs.Rounding
import Mathlib.Algebra.Order.Field.Power
import Mathlib.Algebra.Order.Field.Rat
import Mathlib.Tactic.FieldSimp
import Mathlib.Tactic.NormNum
import Mathlib.Tactic.Positivity

/-!
# Counts as floating-point numbers

A positive count is converted to the floating-point number to which it rounds, or to infinity if it
is too great for any: `exists_roundsTo_ofNat`.  Of two counts of at most 64 bits the quotient is
therefore rounded twice, once in either count and once as a quotient, but if no more is divided by
the greater one the result is still a number from zero to one: `FloatOrder.ratio_mem_unit`.
-/

namespace Cohesion

namespace Rounding

open Float.Model Float.Model.UnpackedFloat

/-! ### Packing -/

/-- The sign is the highest bit, which neither the exponent nor the mantissa reaches. -/
theorem ofBitVec_unpackSign (s : Sign) (b : BitVec Format.binary64.exponentBits)
    (m : BitVec Format.binary64.mantissaBitsWithoutImplicit) :
  Sign.ofBitVec (unpackSign (packComponents .binary64 s b m)) = s
  := by
  have hsign : unpackSign (packComponents .binary64 s b m) = s.toBitVec := by
    ext i hi
    obtain rfl : i = 0 := by omega
    change (BitVec.cast _ (BitVec.extractLsb _ _ (s.toBitVec ++ b ++ m)))[0] = _
    rw [BitVec.getElem_cast, BitVec.getElem_extract, BitVec.getLsbD_append, if_neg (by decide),
      BitVec.getLsbD_append, if_neg (by decide)]
    rfl
  rw [hsign]
  cases s with
  | positive => rfl
  | negative => rfl

section

variable {b : BitVec Format.binary64.numBits}

/-- The greatest exponent stands for what is infinite or no number. -/
theorem unpack_of_greatest (h : unpackExponent b = -1#11) :
  UnpackedFloat.unpack .binary64 b
    = if unpackMantissa b = 0#52 then .infinity (Sign.ofBitVec (unpackSign b)) else .notANumber
  := if_pos h

/-- The least exponent and no digits stand for nothing. -/
theorem unpack_of_nothing (h : unpackExponent b = 0#11) (hm : unpackMantissa b = 0#52) :
  UnpackedFloat.unpack .binary64 b = .zero (Sign.ofBitVec (unpackSign b))
  := by
  have hne : unpackExponent b ≠ -1#11 := by
    rw [h]
    decide
  exact (if_neg hne).trans ((if_pos h).trans (dif_pos hm))

/-- With the least exponent the digits of a number are those of its bits. -/
theorem unpack_of_least (h : unpackExponent b = 0#11) {m : ℕ} (hm : 0 < m)
    (hdigits : (unpackMantissa b).toNat = m) :
  UnpackedFloat.unpack .binary64 b = .finite (Sign.ofBitVec (unpackSign b)) m (-1074) hm
  := by
  subst hdigits
  have hne : unpackExponent b ≠ -1#11 := by
    rw [h]
    decide
  have hm : unpackMantissa b ≠ 0#52 := by
    intro hzero
    rw [hzero] at hm
    exact absurd hm (by decide)
  apply (if_neg hne).trans ((if_pos h).trans ((dif_neg hm).trans _))
  rw [h]
  rfl

/-- With any other exponent there is a digit more in front. -/
theorem unpack_of_between (hones : unpackExponent b ≠ -1#11) (hzero : unpackExponent b ≠ 0#11)
    {m : ℕ} (hm : 0 < m) (hdigits : (1#1 ++ unpackMantissa b).toNat = m) :
  UnpackedFloat.unpack .binary64 b
    = .finite (Sign.ofBitVec (unpackSign b)) m ((unpackExponent b).toNat - 1075) hm
  := by
  subst hdigits
  exact (if_neg hones).trans (if_neg hzero)

end

/-- A packed infinity is unpacked as the infinity of its sign. -/
theorem unpack_packedInfinity (s : Sign) :
  UnpackedFloat.unpack .binary64 (packedInfinity .binary64 s) = .infinity s
  := by
  have hzero : unpackMantissa (packComponents .binary64 s (-1#11) 0) = 0#52 :=
    unpackMantissa_packComponents
  change UnpackedFloat.unpack .binary64 (packComponents .binary64 s (-1#11) 0) = _
  rw [unpack_of_greatest unpackExponent_packComponents, if_pos hzero, ofBitVec_unpackSign]

/-- Packed components of a normal number are unpacked as its mantissa and exponent. -/
theorem unpack_packComponents (s : Sign) {b m : ℕ} (hb : 0 < b) (hb' : b < 2047) (hm : 0 < m)
    (hlow : 2 ^ 52 ≤ m) (hhigh : m < 2 ^ 53) :
  UnpackedFloat.unpack .binary64 (packComponents .binary64 s (.ofNat 11 b) (.ofNat 52 m))
    = .finite s m (b - 1075) hm
  := by
  have hexponent : (BitVec.ofNat 11 b).toNat = b := by
    rw [BitVec.toNat_ofNat]
    omega
  have hdigits : (BitVec.ofNat 52 m).toNat = m % 2 ^ 52 := BitVec.toNat_ofNat m 52
  have hmantissa : (1#1 ++ BitVec.ofNat 52 m).toNat = m := by
    rw [BitVec.toNat_append, ← Nat.shiftLeft_add_eq_or_of_lt (BitVec.isLt _), hdigits,
      Nat.shiftLeft_eq]
    change 1 * 2 ^ 52 + m % 2 ^ 52 = m
    omega
  have hones : BitVec.ofNat 11 b ≠ -1#11 := by
    rw [ne_eq, ← BitVec.toNat_inj, hexponent]
    apply hb'.ne
  have hzero : BitVec.ofNat 11 b ≠ 0#11 := by
    rw [ne_eq, ← BitVec.toNat_inj, hexponent]
    apply hb.ne'
  have hback : unpackExponent (packComponents .binary64 s (.ofNat 11 b) (.ofNat 52 m))
      = .ofNat 11 b := unpackExponent_packComponents
  have hback' : unpackMantissa (packComponents .binary64 s (.ofNat 11 b) (.ofNat 52 m))
      = .ofNat 52 m := unpackMantissa_packComponents
  rw [unpack_of_between (by rwa [hback]) (by rwa [hback]) hm (by rw [hback', hmantissa]),
    ofBitVec_unpackSign, hback, hexponent]

/-- A number with a mantissa of 53 digits is packed without loss unless it is too great. -/
theorem unpack_pack (s : Sign) {m : ℕ} {e : ℤ} (hm : 0 < m) (hlow : 2 ^ 52 ≤ m)
    (hhigh : m < 2 ^ 53) (he : -1074 ≤ e) :
  (Float.Model.pack (.finite s m e hm)).unpack
    = if e ≤ 971 then .finite s m e hm else .infinity s
  := by
  have hlog : m.log2 = 52 := (Nat.log2_eq_iff hm.ne').mpr (by omega)
  obtain ⟨b, hb⟩ : ∃ b : ℕ, e + 1023 + 52 = b := Int.eq_ofNat_of_zero_le (by omega)
  have hpack : UnpackedFloat.pack .binary64 (.finite s m e hm)
      = if e ≤ 971 then packComponents .binary64 s (.ofNat 11 b) (.ofNat 52 m)
        else packedInfinity .binary64 s := by
    change (if 2 ^ 11 ≤ (e + 1023 + 52).toNat + 1 then _
      else if m.log2 + 1 = 53 then
        packComponents .binary64 s (.ofNat 11 (e + 1023 + 52).toNat) (.ofNat 52 m)
      else _) = _
    rw [hlog, if_pos rfl, hb, Int.toNat_natCast]
    split
    · rw [if_neg (by omega)]
    · rw [if_pos (by omega)]
  change UnpackedFloat.unpack _ (UnpackedFloat.pack _ _) = _
  rw [hpack]
  by_cases hle : e ≤ 971
  · have hexponent : (b : ℤ) - 1075 = e := by omega
    rw [if_pos hle, if_pos hle, unpack_packComponents s (by omega) (by omega) hm hlow hhigh, hexponent]
  · rw [if_neg hle, if_neg hle, unpack_packedInfinity]

/-! ### Conversion -/

theorem log2_shiftLeft {n : ℕ} (hn : n ≠ 0) (k : ℕ) :
  (n <<< k).log2 = n.log2 + k
  := by
  rw [Nat.shiftLeft_eq, Nat.log2_eq_iff (by positivity)]
  obtain ⟨hlow, hhigh⟩ := (Nat.log2_eq_iff hn).mp rfl
  rw [pow_add, Nat.add_right_comm, pow_add]
  constructor
  · apply Nat.mul_le_mul_right _ hlow
  · apply Nat.mul_lt_mul_of_pos_right hhigh (Nat.two_pow_pos k)

theorem cast_shiftLeft_mul (n k : ℕ) :
  ((n <<< k : ℕ) * 2 ^ (-(k : ℤ)) : ℚ) = n
  := by
  rw [Nat.shiftLeft_eq, Nat.cast_mul, Nat.cast_pow, zpow_neg, zpow_natCast, Nat.cast_ofNat,
    mul_assoc, mul_inv_cancel₀ (by positivity), mul_one]

/-- A number of at most 53 binary digits is converted without loss. -/
theorem exists_ofNat_eq {n : ℕ} (hn : 0 < n) (hlt : n < 2 ^ 53) :
  ∃ m e, ∃ hm : 0 < m, UnpackedFloat.ofNat .binary64 n = .finite .positive m e hm
    ∧ (m * 2 ^ e : ℚ) = n ∧ 2 ^ 52 ≤ m ∧ m < 2 ^ 53 ∧ -52 ≤ e ∧ e ≤ 0
  := by
  have hlog : n.log2 < 53 := (Nat.log2_lt hn.ne').mpr hlt
  obtain ⟨k, hk⟩ : ∃ k, 52 = n.log2 + k := Nat.exists_eq_add_of_le (by omega)
  have hlogk : (n <<< k).log2 = 52 := (log2_shiftLeft hn.ne' k).trans hk.symm
  have htarget : Format.binary64.targetExponent (totalExponent n 0) = -(k : ℤ) := by
    rw [Format.targetExponent, totalExponent]
    change max (_ - 53) (-1074) = _
    omega
  have hround : UnpackedFloat.ofNat .binary64 n
      = roundWithAccuracy .binary64 .positive (n <<< k) (-k) .exact := by
    rw [UnpackedFloat.ofNat, UnpackedFloat.ofInt, UnpackedFloat.normalize,
      compare_gt_iff_gt.mpr (Int.natCast_pos.mpr hn)]
    simp only [UnpackedFloat.round, decreaseExponent, Int.toNat_natCast, htarget, zero_sub, neg_neg]
  obtain ⟨m, e, hm, heq, hrounds⟩ := exists_roundsTo .positive (represents_exact (n <<< k))
    hlogk.ge (e := -k) (by omega)
  have hne : n <<< k ≠ 0 := by
    intro hzero
    rw [hzero, Nat.log2_zero] at hlogk
    omega
  obtain ⟨hlow, hhigh⟩ := (Nat.log2_eq_iff hne).mp hlogk
  obtain ⟨rfl, rfl⟩ := hrounds.unique (roundsTo_self hlow hhigh _)
  use n <<< k, -k, hm, hround.trans heq, cast_shiftLeft_mul n k, hlow, hhigh
  omega

/-- A product that is a whole number is rounded. -/
theorem exists_roundsTo_mul {n m k : ℕ} {e f : ℤ} (hn : 0 < n) (hm : 0 < m) (hk : 0 < k)
    (hvalue : (m * 2 ^ e * (k * 2 ^ f) : ℚ) = n) (hlow : 2 ^ 52 ≤ m * k)
    (hexponent : -1074 ≤ e + f) :
  ∃ m' e', ∃ hm' : 0 < m', RoundsTo n m' e'
    ∧ (Float.Model.pack
        (.mul .binary64 (.finite .positive m e hm) (.finite .positive k f hk))).unpack
      = if e' ≤ 971 then .finite .positive m' e' hm' else .infinity .positive
  := by
  have hlog : 52 ≤ (m * k).log2 := (Nat.le_log2 (Nat.mul_pos hm hk).ne').mpr hlow
  have hproduct : ((m * k : ℕ) * 2 ^ (e + f) : ℚ) = n := by
    rw [Nat.cast_mul, zpow_add₀ two_ne_zero, mul_mul_mul_comm, hvalue]
  obtain ⟨m', e', hm', heq, hrounds⟩ := exists_roundsTo .positive (represents_exact (m * k)) hlog
    (e := e + f) (by omega)
  rw [hproduct] at hrounds
  obtain ⟨hlow', hhigh'⟩ := hrounds.bounds
  obtain ⟨hexponent', -⟩ := hrounds.exponent_bounds (k := 0) (l := n.log2 + 1)
    (by exact_mod_cast hn) (by exact_mod_cast Nat.lt_log2_self)
  use m', e', hm', hrounds
  change (Float.Model.pack
    (roundWithAccuracy .binary64 .positive (m * k) (e + f) .exact)).unpack = _
  rw [heq, unpack_pack _ hm' hlow' hhigh' (by omega)]

theorem unpack_one :
  (Float.ofBits 0x3FF0000000000000).toModel.unpack = .finite .positive (2 ^ 52) (-52) (by decide)
  := rfl

/-- A positive count becomes the number to which it rounds, or infinity. -/
theorem exists_roundsTo_ofNat {n : ℕ} (hn : 0 < n) :
  ∃ m e, ∃ hm : 0 < m, RoundsTo n m e
    ∧ (Float.ofNat n).toModel.unpack
      = if e ≤ 971 then .finite .positive m e hm else .infinity .positive
  := by
  -- A count that is not too great is converted at once, and then multiplied by one.
  by_cases hlt : n < 2 ^ 53 ∧ 0 ≤ 22
  · have hofNat : Float.ofNat n = n.toUInt64.toFloat * .ofBits 0x3FF0000000000000 := dif_pos hlt
    obtain ⟨m, e, hm, heq, hvalue, hlow, hhigh, hmin, hmax⟩ := exists_ofNat_eq hn hlt.1
    have hconvert : n.toUInt64.toFloat.toModel.unpack = .finite .positive m e hm := by
      change (Float.Model.pack (UnpackedFloat.ofNat .binary64 n.toUInt64.toNat)).unpack = _
      rw [Nat.toUInt64, UInt64.toNat_ofNat', Nat.mod_eq_of_lt (by omega), heq,
        unpack_pack _ hm hlow hhigh (by omega), if_pos (by omega)]
    rw [hofNat]
    change ∃ m e, ∃ hm : 0 < m, RoundsTo n m e ∧ (Float.Model.pack (.mul .binary64
      n.toUInt64.toFloat.toModel.unpack
      (Float.ofBits 0x3FF0000000000000).toModel.unpack)).unpack = _
    rw [hconvert, unpack_one]
    apply exists_roundsTo_mul hn hm (by decide)
    · rw [hvalue]
      norm_num
    · omega
    · omega
  · have hofNat : Float.ofNat n = ⟨Float.Model.ofScientific n 0⟩ := dif_neg hlt
    rw [hofNat]
    change ∃ m e, ∃ hm : 0 < m, RoundsTo n m e
      ∧ (Float.Model.pack (UnpackedFloat.ofScientific .binary64 n 0)).unpack = _
    have hnotTiny : ¬ (0 : ℤ) < -(2 ^ 11 + n.log2) := by omega
    rw [UnpackedFloat.ofScientific, dif_neg hn.ne', if_neg (by decide), if_neg hnotTiny,
      if_pos le_rfl]
    apply exists_roundsTo_mul hn
    · rw [Int.toNat_zero, pow_zero, Nat.cast_one, one_mul, zpow_zero, mul_one]
      apply cast_shiftLeft_mul n 53
    · rw [Int.toNat_zero, pow_zero, mul_one, Nat.shiftLeft_eq]
      change 2 ^ 52 ≤ n * 2 ^ 53
      omega
    · decide

/-- A positive count of at most 64 bits becomes a number of about its size. -/
theorem exists_roundsTo_ofNat_of_lt {n : ℕ} (hn : 0 < n) (hlt : n < 2 ^ 64) :
  ∃ m e, ∃ hm : 0 < m, RoundsTo n m e ∧ -52 ≤ e ∧ e ≤ 12
    ∧ (Float.ofNat n).toModel.unpack = .finite .positive m e hm
  := by
  obtain ⟨m, e, hm, hrounds, hunpack⟩ := exists_roundsTo_ofNat hn
  obtain ⟨hmin, hmax⟩ := hrounds.exponent_bounds (k := 0) (l := 64) (by exact_mod_cast hn)
    (by exact_mod_cast hlt)
  rw [if_pos (by omega)] at hunpack
  use m, e, hm, hrounds
  refine ⟨by omega, by omega, hunpack⟩

/-! ### Division -/

/-- A quotient of two normal numbers keeps the difference of their exponents within the precision. -/
theorem targetExponent_totalExponent_sub {m k : ℕ} {e f : ℤ} (hm : m.log2 = 52) (hk : k.log2 = 52)
    (h : -1021 ≤ e - f) :
  Format.binary64.targetExponent (totalExponent m e - totalExponent k f) = e - f - 53
  := by
  rw [Format.targetExponent, totalExponent, totalExponent, hm, hk]
  change max (_ - 53) (-1074) = _
  omega

/-- A quotient of numbers with mantissas of 53 digits is rounded. -/
theorem exists_roundsTo_div {m k : ℕ} {e f : ℤ} (hm : 0 < m) (hk : 0 < k)
    (hmlow : 2 ^ 52 ≤ m) (hmhigh : m < 2 ^ 53) (hklow : 2 ^ 52 ≤ k) (hkhigh : k < 2 ^ 53)
    (hmin : -1021 ≤ e - f) (hmax : e - f ≤ 970) :
  ∃ q g, ∃ hq : 0 < q, RoundsTo (m * 2 ^ e / (k * 2 ^ f)) q g
    ∧ (Float.Model.pack
        (.div .binary64 (.finite .positive m e hm) (.finite .positive k f hk))).unpack
      = .finite .positive q g hq
  := by
  have hmlog : m.log2 = 52 := (Nat.log2_eq_iff hm.ne').mpr ⟨hmlow, hmhigh⟩
  have hklog : k.log2 = 52 := (Nat.log2_eq_iff hk.ne').mpr ⟨hklow, hkhigh⟩
  -- The dividend is shifted by 53 digits, so that the quotient has 53 or 54 of them.
  have hcore : divCore .binary64 m e k f
      = ((m <<< 53) / k, e - f - 53, accuracyOfFraction ((m <<< 53) % k) k) := by
    have hshift : (e - f - (e - f - 53)).toNat = 53 := by omega
    rw [divCore, targetExponent_totalExponent_sub hmlog hklog hmin, min_eq_right (by omega), hshift]
  have hlow : 2 ^ 52 * k ≤ m <<< 53 := by
    rw [Nat.shiftLeft_eq]
    apply Nat.mul_le_mul hmlow hkhigh.le
  have hhigh : m <<< 53 < 2 ^ 54 * k := by
    rw [Nat.shiftLeft_eq]
    omega
  have hlog : 52 ≤ ((m <<< 53) / k).log2 := by
    have hquotient : 2 ^ 52 ≤ (m <<< 53) / k := (Nat.le_div_iff_mul_le hk).mpr hlow
    apply (Nat.le_log2 (by omega)).mpr hquotient
  obtain ⟨q, g, hq, heq, hrounds⟩ := exists_roundsTo .positive (represents_div (m <<< 53) hk) hlog
    (e := e - f - 53) (by omega)
  obtain ⟨hqlow, hqhigh⟩ := hrounds.bounds
  have hkpos : (0 : ℚ) < k := Nat.cast_pos.mpr hk
  obtain ⟨hglow, hghigh⟩ : 52 + (e - f - 53) ≤ g + 52 ∧ g + 52 ≤ 54 + (e - f - 53) := by
    apply hrounds.exponent_bounds
    · rw [zpow_add₀ two_ne_zero]
      apply mul_le_mul_of_nonneg_right _ (zpow_pos two_pos _).le
      apply (le_div_iff₀ hkpos).mpr
      exact_mod_cast hlow
    · rw [zpow_add₀ two_ne_zero]
      apply mul_lt_mul_of_pos_right _ (zpow_pos two_pos _)
      apply (div_lt_iff₀ hkpos).mpr
      exact_mod_cast hhigh
  have hvalue : ((m <<< 53 : ℕ) / k * 2 ^ (e - f - 53) : ℚ) = m * 2 ^ e / (k * 2 ^ f) := by
    rw [Nat.shiftLeft_eq, Nat.cast_mul, Nat.cast_pow, zpow_sub₀ two_ne_zero, zpow_sub₀ two_ne_zero]
    push_cast
    field_simp
    norm_num
  rw [hvalue] at hrounds
  use q, g, hq, hrounds
  change (Float.Model.pack (roundWithAccuracy .binary64 .positive
    (divCore .binary64 m e k f).1 (divCore .binary64 m e k f).2.1
    (divCore .binary64 m e k f).2.2)).unpack = _
  rw [hcore, heq, unpack_pack _ hq hqlow hqhigh (by omega), if_pos (by omega)]

/-- Normal numbers are ordered by their exponents, and then by their mantissas. -/
theorem mul_zpow_le {m k : ℕ} {e f : ℤ} (hm : m < 2 ^ 53) (hk : 2 ^ 52 ≤ k)
    (h : e < f ∨ e = f ∧ m ≤ k) :
  (m * 2 ^ e : ℚ) ≤ k * 2 ^ f
  := by
  rcases h with h | ⟨rfl, h⟩
  · calc (m * 2 ^ e : ℚ)
        ≤ 2 ^ (53 : ℤ) * 2 ^ e := by
          apply mul_le_mul_of_nonneg_right _ (zpow_pos two_pos e).le
          exact_mod_cast hm.le
      _ = 2 ^ (53 + e) := (zpow_add₀ two_ne_zero 53 e).symm
      _ ≤ 2 ^ (52 + f) := zpow_le_zpow_right₀ one_le_two (by omega)
      _ = 2 ^ (52 : ℤ) * 2 ^ f := zpow_add₀ two_ne_zero 52 f
      _ ≤ k * 2 ^ f := by
          apply mul_le_mul_of_nonneg_right _ (zpow_pos two_pos f).le
          exact_mod_cast hk
  · apply mul_le_mul_of_nonneg_right _ (zpow_pos two_pos e).le
    exact_mod_cast h

end Rounding

namespace FloatOrder

open Float.Model Float.Model.UnpackedFloat Rounding

/-- What is unpacked as finite is a number. -/
theorem isNaN_of_unpack {u : Float} {s : Sign} {m : ℕ} {e : ℤ} {hm : 0 < m}
    (hu : u.toModel.unpack = .finite s m e hm) :
  u.isNaN = false
  := by
  change u.toModel.unpack.isNaN = false
  rw [hu]
  rfl

/-- What is unpacked as finite and positive is at least zero. -/
theorem zero_le_of_unpack {u : Float} {m : ℕ} {e : ℤ} {hm : 0 < m}
    (hu : u.toModel.unpack = .finite .positive m e hm) :
  0.0 ≤ u
  := by
  rw [le_iff_floatRank_le (by decide +kernel) (isNaN_of_unpack hu), floatRank, floatRank, hu]
  apply (rank_lt Int.zero_lt_one).le

/-- What is rounded from no more is no more. -/
theorem le_of_roundsTo {u v : Float} {x y : ℚ} {m k : ℕ} {e f : ℤ} {hm : 0 < m} {hk : 0 < k}
    (hu : u.toModel.unpack = .finite .positive m e hm)
    (hv : v.toModel.unpack = .finite .positive k f hk) (hx : RoundsTo x m e) (hy : RoundsTo y k f)
    (hle : x ≤ y) :
  u ≤ v
  := by
  rw [le_iff_floatRank_le (isNaN_of_unpack hu) (isNaN_of_unpack hv), floatRank, floatRank, hu, hv,
    rank_positive, rank_positive, ← not_lt, lt_iff]
  have horder := hx.le hy hle
  omega

/-- Nothing divided by any positive count is nothing. -/
theorem zero_div_ofNat {n : ℕ} (hn : 0 < n) :
  (0.0 : Float) / Float.ofNat n = 0.0
  := by
  obtain ⟨m, e, hm, -, hunpack⟩ := exists_roundsTo_ofNat hn
  have hzero : (0.0 : Float).toModel.unpack = .zero .positive := rfl
  have hdiv : (0.0 / Float.ofNat n : Float).toModel = Float.Model.pack (.zero .positive) := by
    change Float.Model.pack (.div .binary64 (0.0 : Float).toModel.unpack _) = _
    rw [hzero, hunpack]
    by_cases hle : e ≤ 971
    · rw [if_pos hle]
      rfl
    · rw [if_neg hle]
      rfl
  apply congrArg Float.ofModel hdiv

/-- Of two counts of at most 64 bits the smaller one divided by the greater one is a number from
zero to one. -/
theorem ratio_mem_unit {part total : ℕ} (hle : part ≤ total) (htotal : 0 < total)
    (hlt : total < 2 ^ 64) :
  0.0 ≤ Float.ofNat part / Float.ofNat total ∧ Float.ofNat part / Float.ofNat total ≤ 1.0
  := by
  rcases Nat.eq_zero_or_pos part with rfl | hpart
  · have hzero : Float.ofNat 0 = 0.0 := rfl
    rw [hzero, zero_div_ofNat htotal]
    decide +kernel
  · obtain ⟨m, e, hm, hx, hemin, hemax, hpartUnpack⟩ :=
      exists_roundsTo_ofNat_of_lt hpart (hle.trans_lt hlt)
    obtain ⟨k, f, hk, hy, hfmin, hfmax, htotalUnpack⟩ := exists_roundsTo_ofNat_of_lt htotal hlt
    obtain ⟨hmlow, hmhigh⟩ := hx.bounds
    obtain ⟨hklow, hkhigh⟩ := hy.bounds
    obtain ⟨q, g, hq, hrounds, hunpack⟩ :=
      exists_roundsTo_div hm hk hmlow hmhigh hklow hkhigh (e := e) (f := f) (by omega) (by omega)
    have hquotient : (Float.ofNat part / Float.ofNat total).toModel.unpack
        = .finite .positive q g hq := by
      rw [← hunpack, ← hpartUnpack, ← htotalUnpack]
      rfl
    constructor
    · apply zero_le_of_unpack hquotient
    · have hone := roundsTo_self (m := 2 ^ 52) le_rfl (by decide) (-52)
      apply le_of_roundsTo hquotient unpack_one hrounds hone
      have hpos : (0 : ℚ) < k * 2 ^ f := mul_pos (Nat.cast_pos.mpr hk) (zpow_pos two_pos f)
      calc (m * 2 ^ e / (k * 2 ^ f) : ℚ)
          ≤ 1 := (div_le_one hpos).mpr (mul_zpow_le hmhigh hklow (hx.le hy (Nat.cast_le.mpr hle)))
        _ = (2 ^ 52 : ℕ) * 2 ^ (-52 : ℤ) := by norm_num

end FloatOrder

end Cohesion
