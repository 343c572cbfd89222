import Cohesion.Proofs.Amounts
import Cohesion.Proofs.Readers
import Cohesion.Request

/-!
# Numbers that are read

Every number that is read is finite or fits into 64 bits: `Json.yields_readNumber`.  A number with
many digits or a great exponent is scaled by powers of ten, and it is refused if it leaves the range
on the way: `Json.isFinite_of_scale`.
-/

namespace Cohesion

namespace FloatOrder

open Float.Model Rounding

variable {x : Float} {n : ℕ}

theorem isFinite_neg (h : x.isFinite) :
  (-x).isFinite
  := by
  obtain ⟨s, m, e, hcanonical, he, hunpack⟩ :=
    exists_unpack_eq_outcome x.toModel.toBits.toBitVec h
  change x.toModel.unpack = _ at hunpack
  have hneg : x.toModel.unpack.neg = outcome (-s) m e := by
    rw [hunpack]
    by_cases hm : m = 0
    · rw [hm, outcome_zero, outcome_zero]
      rfl
    · have hm := Nat.pos_of_ne_zero hm
      rw [outcome_of_pos s hm, outcome_of_pos (-s) hm]
      rfl
  change (Float.Model.pack x.toModel.unpack.neg).unpack.isFinite = true
  rw [hneg, unpack_pack_outcome _ hcanonical, if_pos he]
  apply (isFinite_outcome (-s) m e).1

/-- A count of at most 64 bits becomes a finite number. -/
theorem isFiniteAmount_nearest (h : n < Nat.pow 2 64) :
  IsFiniteAmount (Decimal.nearest ⟨n, 0⟩)
  := by
  obtain rfl | hn := n.eq_zero_or_pos
  · apply isAmount_zero.isFiniteAmount (by decide)
  · have hlength : Decimal.length n ≤ 20 := by
      apply (Nat.length_toDigits_le_iff (by decide) (by decide)).mpr
      apply lt_trans h (by decide)
    have hnearest : Decimal.nearest ⟨n, 0⟩ = Float.ofNat n := by
      rw [Decimal.nearest]
      dsimp only
      rw [if_neg (by simp; omega), if_neg (by omega), if_neg (by decide)]
      rfl
    obtain ⟨m, e, hm, hrounds, hmin, hmax, hunpack⟩ := exists_roundsTo_ofNat_of_lt hn h
    obtain ⟨hlow, hhigh⟩ := hrounds.bounds
    rw [hnearest]
    have hamount : IsAmount (Float.ofNat n) m e := by
      use ⟨hhigh, by omega, Or.inr hlow⟩, .positive, fun _ => rfl
      rw [if_pos (by omega), hunpack, outcome_of_pos _ hm]
    apply hamount.isFiniteAmount (by omega)

/-- Powers of ten in the middle of the range are rounded. -/
theorem exists_roundsTo_ofScientific {k : ℕ} (hlow : 22 < k) (hhigh : k ≤ 307) :
  ∃ m e, ∃ hm : 0 < m, RoundsTo (10 ^ k : ℕ) m e
    ∧ (Float.ofScientific 1 false k).toModel.unpack
      = if e ≤ 971 then .finite .positive m e hm else .infinity .positive
  := by
  have hpos : 0 < 10 ^ k := Nat.pow_pos (by decide)
  have hexponents : 2 ^ Format.binary64.exponentBits = (2048 : ℤ) := rfl
  rw [Float.ofScientific, dif_neg (by omega)]
  change ∃ m e, ∃ hm : 0 < m, RoundsTo (10 ^ k : ℕ) m e
    ∧ (Float.Model.pack (UnpackedFloat.ofScientific .binary64 1 k)).unpack = _
  rw [UnpackedFloat.ofScientific, dif_neg (by decide), if_neg (by omega), if_neg (by omega),
    if_pos (by omega)]
  apply exists_roundsTo_mul hpos
  · rw [Int.toNat_natCast, Nat.shiftLeft_eq, zpow_zero, mul_one, one_mul]
    change ((2 ^ 53 : ℕ) * 2 ^ (-53 : ℤ) * (10 ^ k : ℕ) : ℚ) = (10 ^ k : ℕ)
    norm_num
  · rw [Int.toNat_natCast, Nat.shiftLeft_eq, one_mul]
    change 2 ^ 52 ≤ 2 ^ 53 * 10 ^ k
    omega
  · decide

/-- Powers of ten in the middle of the range become numbers of about their size. -/
theorem exists_isAmount_ofScientific {k : ℕ} (hlow : 22 < k) (hhigh : k ≤ 307) :
  ∃ m e, IsAmount (Float.ofScientific 1 false k) m e ∧ -52 ≤ e ∧ e ≤ 971 ∧ 2 ^ 52 ≤ m
  := by
  have hpos : 0 < 10 ^ k := Nat.pow_pos (by decide)
  have hlt : 10 ^ k < 2 ^ 1023 :=
    lt_of_le_of_lt (Nat.pow_le_pow_right (by decide) hhigh) (by decide +kernel)
  obtain ⟨m, e, hm, hrounds, hunpack⟩ := exists_roundsTo_ofScientific hlow hhigh
  obtain ⟨hmlow, hmhigh⟩ := hrounds.bounds
  obtain ⟨hmin, hmax⟩ := hrounds.exponent_bounds (k := 0) (l := 1023) (by exact_mod_cast hpos)
    (by exact_mod_cast hlt)
  use m, e
  refine ⟨⟨⟨hmhigh, by omega, Or.inr hmlow⟩, .positive, fun _ => rfl, ?_⟩, by omega, by omega,
    hmlow⟩
  rw [hunpack, outcome_of_pos _ hm]

/-- The powers of ten up to the greatest that is used are finite and at least one. -/
theorem isFiniteAmount_powerOfTen {k : ℕ} (h : k ≤ 308) :
  IsFiniteAmount (Json.powerOfTen k) ∧ 1.0 ≤ Json.powerOfTen k
  := by
  by_cases hmiddle : 22 < k ∧ k ≤ 307
  · obtain ⟨m, e, hamount, hmin, hmax, hm⟩ := exists_isAmount_ofScientific hmiddle.1 hmiddle.2
    have hpower : Json.powerOfTen k = Float.ofScientific 1 false k := by
      have hlength : Decimal.length 1 = 1 := rfl
      rw [Json.powerOfTen, Decimal.nearest]
      dsimp only
      rw [hlength, if_neg (by simp; omega), if_neg (by omega), if_neg (by omega),
        Int.natAbs_natCast]
    rw [hpower]
    use hamount.isFiniteAmount hmax
    apply isAmount_one.le hamount
    omega
  · -- Up to `10 ^ 22` the power stands in a table, and `10 ^ 308` is close to the greatest number.
    have hpowers : ∀ k ∈ 308 :: List.range 23, (Json.powerOfTen k).isFinite
        ∧ 0.0 ≤ Json.powerOfTen k ∧ 1.0 ≤ Json.powerOfTen k := by
      decide +kernel
    have hk : k ∈ 308 :: List.range 23 := by
      rw [List.mem_cons, List.mem_range]
      omega
    obtain ⟨hfinite, hzero, hone⟩ := hpowers k hk
    use ⟨hfinite, hzero⟩

end FloatOrder

namespace Json

open FloatOrder

variable {x y : Float} {e : ℤ}

/-- What is scaled stays finite. -/
theorem isFinite_of_scale (hx : IsFiniteAmount x) (h : scale x e = some y) :
  y.isFinite
  := by
  induction x, e using scale.induct generalizing y with
  | case1 x e hzero =>
    rw [scale, if_pos hzero] at h
    cases h
    apply hx.isFinite
  | case2 x e hzero hgreat =>
    rw [scale, if_neg hzero, if_pos hgreat] at h
    cases h
  | case3 x e hzero hgreat hpos =>
    rw [scale, if_neg hzero, if_neg hgreat, if_pos hpos] at h
    dsimp only at h
    rw [if_pos ‹_›] at h
    cases h
    assumption
  | case4 x e hzero hgreat hpos =>
    rw [scale, if_neg hzero, if_neg hgreat, if_pos hpos] at h
    dsimp only at h
    rw [if_neg ‹_›] at h
    cases h
  | case5 x e hzero hgreat hpos hleast =>
    rw [scale, if_neg hzero, if_neg hgreat, if_neg hpos, if_pos hleast] at h
    cases h
    obtain ⟨hpower, hone⟩ := isFiniteAmount_powerOfTen (k := (-e).toNat) (by omega)
    apply (hx.div hpower hone).isFinite
  | case6 x e hzero hgreat hpos hleast ih =>
    rw [scale, if_neg hzero, if_neg hgreat, if_neg hpos, if_neg hleast] at h
    obtain ⟨hpower, hone⟩ := isFiniteAmount_powerOfTen (k := 308) le_rfl
    apply ih (hx.div hpower hone) h

/-- The kept digits of a number fit into 64 bits. -/
theorem keepDigits_lt {acc : ℕ} (h : acc < Nat.pow 2 64) (cs : List Char) :
  (keepDigits acc cs).1 < Nat.pow 2 64
  := by
  induction cs generalizing acc with
  | nil => exact h
  | cons c cs ih =>
    rw [keepDigits]
    split
    · rename_i hnext
      apply ih hnext
    · exact h

/-- A number that is read is finite, or it fits into 64 bits. -/
def Number.Fits : Number → Prop
  | .natural n => n < Nat.pow 2 64
  | .negative n => n.natAbs < Nat.pow 2 64
  | .double x => x.isFinite

/-- A number that fits is converted to a finite double. -/
theorem Number.Fits.isFinite_toFloat {n : Number} (h : n.Fits) :
  n.toFloat.isFinite
  := by
  cases n with
  | natural n => apply (isFiniteAmount_nearest h).isFinite
  | negative n => apply isFinite_neg (isFiniteAmount_nearest h).isFinite
  | double x => exact h

/-- A numeral converted without a fault gives a finite double. -/
theorem isFinite_of_toFloat {n : Numeral} (h : n.toFloat = .ok x) :
  x.isFinite
  := by
  have hparts : n.parts.1 < Nat.pow 2 64 := keepDigits_lt (keepDigits_lt (by decide) _) _
  rw [Numeral.toFloat] at h
  dsimp only at h
  split at h
  · rename_i y hy
    have hfinite := isFinite_of_scale (isFiniteAmount_nearest hparts) hy
    cases h
    split
    · apply isFinite_neg hfinite
    · exact hfinite
  · cases h

/-- The value of a numeral fits, where it has one. -/
theorem fits_of_value {n : Numeral} {number : Number} (h : n.value = .ok number) :
  number.Fits
  := by
  have hsize : (keepDigits 0 n.whole).1 < Nat.pow 2 64 := keepDigits_lt (by decide) n.whole
  have hdouble (h : n.toFloat.map .double = .ok number) : number.Fits := by
    cases hx : n.toFloat with
    | error fault =>
      rw [hx] at h
      cases h
    | ok x =>
      rw [hx] at h
      cases h
      apply isFinite_of_toFloat hx
  rw [Numeral.value] at h
  dsimp only at h
  split at h
  · split at h
    · cases h
      exact hsize
    · split at h
      · cases h
        rw [Number.Fits, Int.natAbs_neg]
        exact hsize
      · apply hdouble h
  · apply hdouble h

/-- Every number read fits. -/
theorem yields_readNumber :
  Yields readNumber Number.Fits
  := by
  intro bs number left h
  obtain ⟨⟨numeral, rest⟩, -, h⟩ := Except.bind_eq_ok_iff.mp h
  obtain ⟨value, hvalue, ⟨⟩⟩ := Except.bind_eq_ok_iff.mp h
  apply fits_of_value hvalue

end Json

namespace Request

open Json

theorem yields_ofNumber {α : Type} {P : α → Prop} {expected : Expected} {f : Number → Reader α}
    (h : ∀ number : Number, number.Fits → Yields (f number) P) :
  Yields (peekOr .endOfValue >>= fun c =>
    if c = '-' || c.isDigit then readNumber >>= f else refuse expected) P
  := by
  apply Yields.after
  intro c
  split
  · exact Yields.bind yields_readNumber h
  · apply yields_refuse

/-- Every double read is finite. -/
theorem yields_readFloat :
  Yields readFloat fun x => x.isFinite
  := yields_ofNumber fun _ h => .pure h.isFinite_toFloat

/-- Every count read is below two to the sixty-fourth. -/
theorem yields_readCount :
  Yields readCount (· < Nat.pow 2 64)
  := by
  apply yields_ofNumber
  intro number h
  cases number with
  | natural n => exact .pure h
  | negative n => exact .throw
  | double x => exact .throw

end Request

end Cohesion
