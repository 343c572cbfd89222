import Cohesion.Proofs.FloatCount

/-!
# Rounding in the whole range

A number that is not so small that it lacks digits has a mantissa of 53 binary digits.  A mantissa
is canonical if it has 53, or fewer and the exponent is the least one: `Rounding.IsCanonical`.
`Rounding.RoundsInto x m e` says that the fraction `x`, however small, rounds to the canonical
`m * 2 ^ e`.  This preserves the order, `Rounding.RoundsInto.le`, and is what is made of the exact
result of a multiplication, `Rounding.IsCanonical.exists_mul_eq`, and of a division,
`Rounding.exists_div_eq`.  Packing loses nothing of it: `Rounding.unpack_pack_outcome`.
-/

namespace Cohesion

namespace Rounding

open Float.Model Float.Model.UnpackedFloat

variable {em : ExtendedMantissa} {x y : ℚ} {m n k : ℕ} {e f : ℤ}

/-! ### Rounding in the whole range -/

/-- The mantissa has at most 53 binary digits, and fewer only with the least exponent. -/
structure IsCanonical (m : ℕ) (e : ℤ) : Prop where
  lt : m < 2 ^ 53
  least_le : -1074 ≤ e
  eq_least_or : e = -1074 ∨ 2 ^ 52 ≤ m

/-- The fraction `x` rounds to `m * 2 ^ e`: for the exponent at which its integer part is canonical,
the mantissa is rounded. -/
def RoundsInto (x : ℚ) (m : ℕ) (e : ℤ) : Prop :=
  ∃ em f, Represents em (x / 2 ^ f) ∧ IsCanonical em.mantissa f
    ∧ carry em.roundedMantissa f = (m, e)

theorem isCanonical_zero :
  IsCanonical 0 (-1074)
  := ⟨by decide, le_rfl, Or.inl rfl⟩

/-- What a number rounds into is in canonical form. -/
theorem RoundsInto.isCanonical (h : RoundsInto x m e) :
  IsCanonical m e
  := by
  obtain ⟨em, f, hrepresents, ⟨hlt, hleast, hor⟩, hcarry⟩ := h
  have hbounds := hrepresents.roundedMantissa_bounds
  rw [carry] at hcarry
  split at hcarry
  · cases hcarry
    constructor <;> omega
  · cases hcarry
    constructor <;> omega

/-- A canonical mantissa with its exponent rounds to itself. -/
theorem IsCanonical.roundsInto (h : IsCanonical m e) :
  RoundsInto (m * 2 ^ e) m e
  := by
  use .ofMantissaAndAccuracy m .exact, e
  rw [mul_div_cancel_right₀ _ (zpow_ne_zero e two_ne_zero)]
  use represents_exact m, h
  apply if_neg h.lt.ne

theorem roundsInto_zero :
  RoundsInto 0 0 (-1074)
  := by
  have hself := isCanonical_zero.roundsInto
  rw [Nat.cast_zero, zero_mul] at hself
  apply hself

/-- A number represented by less than fifty-three bits is below the power of two at their end. -/
theorem Represents.lt_zpow {l : ℤ} (h : Represents em (x / 2 ^ f)) (hlt : em.mantissa < 2 ^ 53)
    (hl : 53 + f ≤ l) :
  x < 2 ^ l
  := by
  have hcast : (em.mantissa : ℚ) + 1 ≤ 2 ^ (53 : ℤ) := by exact_mod_cast hlt
  calc x
      < 2 ^ (53 : ℤ) * 2 ^ f := (div_lt_iff₀ (zpow_pos two_pos f)).mp (h.lt.trans_le hcast)
    _ = 2 ^ (53 + f) := (zpow_add₀ two_ne_zero 53 f).symm
    _ ≤ 2 ^ l := zpow_le_zpow_right₀ one_le_two hl

/-- Rounding preserves the order. -/
theorem RoundsInto.le (h : RoundsInto x m e) (h' : RoundsInto y n f) (hle : x ≤ y) :
  e < f ∨ e = f ∧ m ≤ n
  := by
  obtain ⟨em, e', hrepresents, hcanonical, hcarry⟩ := h
  obtain ⟨em', f', hrepresents', hcanonical', hcarry'⟩ := h'
  have hexponents : e' ≤ f' := by
    by_contra hgt
    have hleast := hcanonical'.least_le
    have hlow := hcanonical.eq_least_or.resolve_left (by omega)
    obtain ⟨hleft, -⟩ := hrepresents.window hlow hcanonical.lt
    have hright := hrepresents'.lt_zpow hcanonical'.lt (l := 52 + e') (by omega)
    apply absurd (hleft.trans hle) (not_le_of_gt hright)
  have hrounded : e' = f' → em.roundedMantissa ≤ em'.roundedMantissa := by
    rintro rfl
    apply hrepresents.roundedMantissa_le hrepresents'
    apply div_le_div_of_nonneg_right hle (zpow_pos two_pos e').le
  have hbounds := hrepresents.roundedMantissa_bounds
  have hbounds' := hrepresents'.roundedMantissa_bounds
  obtain ⟨hlt, hleast, hor⟩ := hcanonical
  obtain ⟨hlt', hleast', hor'⟩ := hcanonical'
  rw [carry] at hcarry hcarry'
  split at hcarry <;> split at hcarry' <;> cases hcarry <;> cases hcarry' <;> omega

/-- Nothing but nothing rounds from nothing. -/
theorem RoundsInto.eq_zero (h : RoundsInto 0 m e) :
  m = 0
  := by
  have hle := h.le roundsInto_zero le_rfl
  have hleast := h.isCanonical.least_le
  omega

/-! ### What the operations compute -/

/-- A mantissa is shifted until it is canonical, unless it lacks digits. -/
theorem exists_shiftToTargetExponent_eq (hm : 52 ≤ m.log2 ∨ e ≤ -1074) (acc : Accuracy) :
  ∃ k : ℕ, shiftToTargetExponent .binary64 m e acc
      = (ExtendedMantissa.ofMantissaAndAccuracy m acc >>> k, e + k)
    ∧ IsCanonical (m / 2 ^ k) (e + k)
  := by
  have htarget : Format.binary64.targetExponent (totalExponent m e)
      = max (m.log2 - 52 + e) (-1074) := by
    rw [Format.targetExponent, totalExponent]
    change max (_ - 53) (-1074) = _
    omega
  -- A mantissa that lacks no digits is never below its target exponent.
  obtain ⟨k, hk⟩ := Int.eq_ofNat_of_zero_le (a := max (m.log2 - 52 + e) (-1074) - e) (by omega)
  use k
  constructor
  · rw [shiftToTargetExponent, htarget, shiftToExponent, hk]
    rfl
  · constructor
    · rw [Nat.div_lt_iff_lt_mul (Nat.two_pow_pos k), ← pow_add]
      apply Nat.lt_log2_self.trans_le
      apply Nat.pow_le_pow_right two_pos
      omega
    · omega
    · by_cases hleast : e + k = -1074
      · exact Or.inl hleast
      · right
        have hlog : m.log2 = 52 + k := by omega
        have hne : m ≠ 0 := by
          rintro rfl
          rw [Nat.log2_zero] at hlog
          omega
        rw [Nat.le_div_iff_mul_le (Nat.two_pow_pos k), ← pow_add, ← hlog]
        apply Nat.log2_self_le hne

/-- The second shift does nothing but carry. -/
theorem shiftToTargetExponent_rounded {r : ℕ} (hr : r ≤ 2 ^ 53) (hf : -1074 ≤ f)
    (hor : f = -1074 ∨ 2 ^ 52 ≤ r) :
  ((shiftToTargetExponent .binary64 r f .exact).1.mantissa,
      (shiftToTargetExponent .binary64 r f .exact).2)
    = carry r f
  := by
  have hlog : 52 ≤ r.log2 ∨ f ≤ -1074 := by
    obtain rfl | hlow := hor
    · exact Or.inr le_rfl
    · exact Or.inl ((Nat.le_log2 (by omega)).mpr hlow)
  obtain ⟨k, hshift, hlt, hleast, hor'⟩ := exists_shiftToTargetExponent_eq hlog .exact
  rw [hshift, mantissa_shiftRight, mantissa_ofMantissaAndAccuracy, carry]
  obtain _ | _ | k := k
  · rw [if_neg (by omega)]
    simp
  · split
    · rename_i heq
      rw [heq]
      rfl
    · omega
  · have hquarter : r / 2 ^ (k + 1 + 1) ≤ 2 ^ 53 / 2 ^ 2 := by
      apply Nat.div_le_div hr (Nat.pow_le_pow_right two_pos (by omega)) (by decide)
    omega

/-- A rounded result, which may be zero. -/
def outcome (s : Sign) (m : ℕ) (e : ℤ) : UnpackedFloat :=
  if h : m = 0 then .zero s else .finite s m e (Nat.pos_of_ne_zero h)

theorem outcome_zero (s : Sign) (e : ℤ) :
  outcome s 0 e = .zero s
  := dif_pos rfl

theorem outcome_of_pos (s : Sign) (hm : 0 < m) (e : ℤ) :
  outcome s m e = .finite s m e hm
  := dif_neg hm.ne'

/-- A rounded result is not infinite, and it is a number. -/
theorem isFinite_outcome (s : Sign) (m : ℕ) (e : ℤ) :
  (outcome s m e).isFinite ∧ (outcome s m e).isNaN = false
  := by
  by_cases hm : m = 0
  · rw [hm, outcome_zero]
    use rfl
    rfl
  · rw [outcome_of_pos s (Nat.pos_of_ne_zero hm)]
    use rfl
    rfl

/-- Rounding a mantissa rounds the fraction for which it stands, unless it lacks digits. -/
theorem exists_roundsInto (s : Sign) {acc : Accuracy}
    (hx : Represents (.ofMantissaAndAccuracy m acc) x) (hm : 52 ≤ m.log2 ∨ e ≤ -1074) :
  ∃ n f, roundWithAccuracy .binary64 s m e acc = outcome s n f ∧ RoundsInto (x * 2 ^ e) n f
  := by
  obtain ⟨k, hfirst, hcanonical⟩ := exists_shiftToTargetExponent_eq hm acc
  have hem := hx.shiftRight k
  have hmantissa := mantissa_shiftRight (.ofMantissaAndAccuracy m acc) k
  rw [mantissa_ofMantissaAndAccuracy] at hmantissa
  rw [← hmantissa] at hcanonical
  generalize ExtendedMantissa.ofMantissaAndAccuracy m acc >>> k = em at hem hcanonical hfirst
  have hrounded := hem.roundedMantissa_bounds
  obtain ⟨hlt, hleast, hor⟩ := hcanonical
  have hsecond : _ = carry em.roundedMantissa (e + k) :=
    shiftToTargetExponent_rounded (by omega) hleast (by omega)
  cases hcarry : carry em.roundedMantissa (e + k) with
  | mk n f =>
    rw [hcarry, Prod.mk.injEq] at hsecond
    use n, f
    constructor
    · rw [roundWithAccuracy, hfirst]
      obtain ⟨rfl, rfl⟩ := hsecond
      rfl
    · use em, e + k
      rw [zpow_add₀ two_ne_zero, mul_comm x, mul_div_mul_left _ _ (zpow_ne_zero e two_ne_zero),
        zpow_natCast]
      use hem, ⟨hlt, hleast, hor⟩

/-! ### Packing -/

/-- A number with fewer than 53 digits is packed without loss. -/
theorem unpack_pack_of_lt (s : Sign) (hm : 0 < m) (hlt : m < 2 ^ 52) :
  (Float.Model.pack (.finite s m (-1074) hm)).unpack = .finite s m (-1074) hm
  := by
  have hlog : m.log2 < 52 := (Nat.log2_lt hm.ne').mpr hlt
  have hdigits : (BitVec.ofNat 52 m).toNat = m := Nat.mod_eq_of_lt hlt
  have hpack : UnpackedFloat.pack .binary64 (.finite s m (-1074) hm)
      = packComponents .binary64 s 0#11 (.ofNat 52 m) := by
    change (if 2 ^ 11 ≤ 2 then packedInfinity .binary64 s
      else if m.log2 + 1 = 53 then packComponents .binary64 s 1#11 (.ofNat 52 m)
      else _) = _
    rw [if_neg (by decide), if_neg (by omega)]
  change UnpackedFloat.unpack _ (UnpackedFloat.pack _ _) = _
  rw [hpack, unpack_of_least unpackExponent_packComponents hm, ofBitVec_unpackSign]
  rw [unpackMantissa_packComponents]
  apply hdigits

/-- A rounded result is packed without loss unless it is too great. -/
theorem unpack_pack_outcome (s : Sign) (h : IsCanonical m e) :
  (Float.Model.pack (outcome s m e)).unpack = if e ≤ 971 then outcome s m e else .infinity s
  := by
  by_cases hzero : m = 0
  · rw [if_pos (by have := h.eq_least_or; omega), hzero, outcome_zero]
    cases s <;> rfl
  · have hm := Nat.pos_of_ne_zero hzero
    rw [outcome_of_pos s hm]
    by_cases hlow : 2 ^ 52 ≤ m
    · apply unpack_pack s _ hlow h.lt h.least_le
    · obtain rfl := h.eq_least_or.resolve_right hlow
      rw [unpack_pack_of_lt s _ (not_le.mp hlow)]
      rfl

/-- What is no number and not infinite has a canonical mantissa. -/
theorem exists_unpack_eq_outcome (b : BitVec Format.binary64.numBits)
    (h : (UnpackedFloat.unpack .binary64 b).isFinite) :
  ∃ s m e, IsCanonical m e ∧ e ≤ 971 ∧ UnpackedFloat.unpack .binary64 b = outcome s m e
  := by
  have hmantissa : (unpackMantissa b).toNat < 2 ^ 52 := (unpackMantissa b).isLt
  have hexponent : (unpackExponent b).toNat < 2 ^ 11 := (unpackExponent b).isLt
  use Sign.ofBitVec (unpackSign b)
  by_cases hones : unpackExponent b = -1#11
  · rw [unpack_of_greatest hones] at h
    split at h <;> cases h
  by_cases hzero : unpackExponent b = 0#11
  · by_cases hne : unpackMantissa b = 0#52
    · use 0, -1074, isCanonical_zero
      use by decide
      apply unpack_of_nothing hzero hne
    · have hpos : 0 < (unpackMantissa b).toNat := by
        rw [BitVec.toNat_pos, BitVec.pos_iff_ne_zero]
        apply hne
      use (unpackMantissa b).toNat, -1074, ⟨by omega, le_rfl, Or.inl rfl⟩
      use by decide
      rw [outcome_of_pos _ hpos, unpack_of_least hzero hpos rfl]
  · have hdigits : (1#1 ++ unpackMantissa b).toNat = 2 ^ 52 + (unpackMantissa b).toNat := by
      rw [BitVec.toNat_append, ← Nat.shiftLeft_add_eq_or_of_lt (BitVec.isLt _)]
      rfl
    have hpos : 0 < 2 ^ 52 + (unpackMantissa b).toNat := by omega
    rw [unpack_of_between hones hzero hpos hdigits]
    rw [← BitVec.toNat_inj] at hones hzero
    change (unpackExponent b).toNat ≠ 2047 at hones
    change (unpackExponent b).toNat ≠ 0 at hzero
    use 2 ^ 52 + (unpackMantissa b).toNat, (unpackExponent b).toNat - 1075
    rw [outcome_of_pos _ hpos]
    refine ⟨⟨?_, ?_, ?_⟩, ?_, rfl⟩ <;> omega

/-! ### Products and quotients -/

/-- The exact product of two canonical mantissas does not lack digits. -/
theorem IsCanonical.le_log2_mul (hm : IsCanonical m e) (hn : IsCanonical n f) (hm0 : m ≠ 0)
    (hn0 : n ≠ 0) :
  52 ≤ (m * n).log2 ∨ e + f ≤ -1074
  := by
  have hlog : 2 ^ 52 ≤ m * n → 52 ≤ (m * n).log2 := (Nat.le_log2 (mul_ne_zero hm0 hn0)).mpr
  obtain rfl | hlow := hm.eq_least_or
  · obtain rfl | hlow := hn.eq_least_or
    · exact Or.inr (by decide)
    · exact Or.inl (hlog (hlow.trans (Nat.le_mul_of_pos_left n (Nat.pos_of_ne_zero hm0))))
  · exact Or.inl (hlog (hlow.trans (Nat.le_mul_of_pos_right m (Nat.pos_of_ne_zero hn0))))

/-- The quotient that is rounded does not lack digits. -/
theorem exists_divCore_eq (hm : m ≠ 0) (hk : k ≠ 0) (e f : ℤ) :
  ∃ (s : ℕ) (t : ℤ), s + t = e - f
    ∧ divCore .binary64 m e k f = ((m <<< s) / k, t, accuracyOfFraction ((m <<< s) % k) k)
    ∧ (52 ≤ ((m <<< s) / k).log2 ∨ t ≤ -1074)
  := by
  have htarget : Format.binary64.targetExponent (totalExponent m e - totalExponent k f)
      = max (m.log2 - k.log2 + (e - f) - 53) (-1074) := by
    rw [Format.targetExponent, totalExponent, totalExponent]
    change max (_ - 53) (-1074) = _
    omega
  -- The exponent of the quotient itself, or a lower one at which it does not lack digits.
  obtain ⟨t, ht⟩ : ∃ t, t = min (e - f) (max (m.log2 - k.log2 + (e - f) - 53) (-1074)) := ⟨_, rfl⟩
  obtain ⟨s, hs⟩ := Int.eq_ofNat_of_zero_le (a := e - f - t) (by omega)
  use s, t, by omega
  constructor
  · rw [divCore, htarget, ← ht, hs]
    rfl
  · by_cases hleast : t ≤ -1074
    · exact Or.inr hleast
    · left
      have hdigits : 52 + (k.log2 + 1) ≤ m.log2 + s := by omega
      have hlow : 2 ^ 52 ≤ (m <<< s) / k := by
        rw [Nat.le_div_iff_mul_le (Nat.pos_of_ne_zero hk), Nat.shiftLeft_eq]
        calc 2 ^ 52 * k
            ≤ 2 ^ 52 * 2 ^ (k.log2 + 1) := Nat.mul_le_mul_left _ Nat.lt_log2_self.le
          _ = 2 ^ (52 + (k.log2 + 1)) := (pow_add 2 52 _).symm
          _ ≤ 2 ^ (m.log2 + s) := Nat.pow_le_pow_right two_pos hdigits
          _ = 2 ^ m.log2 * 2 ^ s := pow_add 2 _ s
          _ ≤ m * 2 ^ s := Nat.mul_le_mul_right _ (Nat.log2_self_le hm)
      apply (Nat.le_log2 (by omega)).mpr hlow

/-- Shifting the dividend before the division changes the exponent of the quotient alone. -/
theorem shiftLeft_div_mul_zpow {s : ℕ} {t : ℤ} (h : s + t = e - f) :
  ((m <<< s : ℕ) / k * 2 ^ t : ℚ) = m * 2 ^ e / (k * 2 ^ f)
  := by
  have hpow : (2 ^ s * 2 ^ t : ℚ) = 2 ^ e / 2 ^ f := by
    rw [← zpow_natCast, ← zpow_add₀ two_ne_zero, h, zpow_sub₀ two_ne_zero]
  rw [Nat.shiftLeft_eq, Nat.cast_mul, Nat.cast_pow, Nat.cast_ofNat, div_mul_eq_mul_div, mul_assoc,
    hpow, mul_div_assoc', div_div, mul_comm (2 ^ f) (k : ℚ)]

/-- A product is the exact product, rounded. -/
theorem IsCanonical.exists_mul_eq (hm : IsCanonical m e) (hn : IsCanonical n f) (s t : Sign) :
  ∃ k g, UnpackedFloat.mul .binary64 (outcome s m e) (outcome t n f) = outcome (s * t) k g
    ∧ RoundsInto (m * 2 ^ e * (n * 2 ^ f)) k g
  := by
  by_cases hm0 : m = 0
  · use 0, -1074
    rw [hm0, Nat.cast_zero, zero_mul, zero_mul]
    use by cases n <;> rfl
    apply roundsInto_zero
  · by_cases hn0 : n = 0
    · use 0, -1074
      rw [hn0, Nat.cast_zero, zero_mul, mul_zero]
      use by cases m <;> rfl
      apply roundsInto_zero
    · have hproduct : ((m * n : ℕ) * 2 ^ (e + f) : ℚ) = m * 2 ^ e * (n * 2 ^ f) := by
        rw [Nat.cast_mul, zpow_add₀ two_ne_zero, mul_mul_mul_comm]
      obtain ⟨k, g, hround, hrounds⟩ :=
        exists_roundsInto (s * t) (represents_exact (m * n)) (hm.le_log2_mul hn hm0 hn0)
      rw [hproduct] at hrounds
      use k, g
      rw [outcome_of_pos s (Nat.pos_of_ne_zero hm0), outcome_of_pos t (Nat.pos_of_ne_zero hn0)]
      use hround

/-- A quotient is the exact quotient, rounded. -/
theorem exists_div_eq (hk : k ≠ 0) (m : ℕ) (e f : ℤ) (s t : Sign) :
  ∃ n g, UnpackedFloat.div .binary64 (outcome s m e) (outcome t k f) = outcome (s / t) n g
    ∧ RoundsInto (m * 2 ^ e / (k * 2 ^ f)) n g
  := by
  rw [outcome_of_pos t (Nat.pos_of_ne_zero hk)]
  by_cases hm : m = 0
  · use 0, -1074
    rw [hm, Nat.cast_zero, zero_mul, zero_div]
    use rfl
    apply roundsInto_zero
  · obtain ⟨l, g, hshift, hcore, hdigits⟩ := exists_divCore_eq hm hk e f
    obtain ⟨n, h, hround, hrounds⟩ :=
      exists_roundsInto (s / t) (represents_div (m <<< l) (Nat.pos_of_ne_zero hk)) hdigits
    rw [shiftLeft_div_mul_zpow hshift] at hrounds
    use n, h
    rw [outcome_of_pos s (Nat.pos_of_ne_zero hm)]
    constructor
    · change roundWithAccuracy .binary64 (s / t) (divCore .binary64 m e k f).1
        (divCore .binary64 m e k f).2.1 (divCore .binary64 m e k f).2.2 = _
      rw [hcore, ← hround]
    · apply hrounds

/-- Canonical mantissas with their exponents are ordered as the numbers that they are. -/
theorem IsCanonical.mul_zpow_le (hm : IsCanonical m e) (hn : IsCanonical n f)
    (h : e < f ∨ e = f ∧ m ≤ n) :
  (m * 2 ^ e : ℚ) ≤ n * 2 ^ f
  := by
  obtain hlt | ⟨rfl, hle⟩ := h
  · have hleast := hm.least_le
    have hlow := hn.eq_least_or.resolve_left (by omega)
    apply Rounding.mul_zpow_le hm.lt hlow (Or.inl hlt)
  · apply mul_le_mul_of_nonneg_right _ (zpow_pos two_pos e).le
    exact_mod_cast hle

end Rounding

end Cohesion
