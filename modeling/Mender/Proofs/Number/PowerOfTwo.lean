import Mender.Number.Amount
import Mender.Proofs.Number.Rounding

namespace Mender

namespace Binary64

theorem isNan_of_isFinite {x : Binary64} (finite : x.isFinite = true) : x.isNan = false := by
  simp only [isFinite, isNan, decide_eq_true_eq, decide_eq_false_iff_not] at finite ⊢
  omega

theorem isInfinite_of_isFinite {x : Binary64} (finite : x.isFinite = true) : x.isInfinite = false := by
  simp only [isFinite, isInfinite, decide_eq_true_eq, beq_eq_false_iff_ne] at finite ⊢
  omega

theorem isNan_of_not_isFinite {x : Binary64} (beyond : x.isFinite = false) : x.isNan = !x.isInfinite := by
  simp only [isFinite, isInfinite, isNan, decide_eq_false_iff_not] at beyond ⊢
  rcases (not_lt.mp beyond).eq_or_lt with same | above
  · simp [← same]
  · simp [above, above.ne']

/-- Equal fractions have one nearest code. -/
theorem nearestCode_congr {num den num' den' : Nat} (below : 0 < den) (below' : 0 < den')
    (same : ratio num den = ratio num' den') : nearestCode num den = nearestCode num' den' :=
  Nat.le_antisymm (nearestCode_mono below below' same.le) (nearestCode_mono below' below same.ge)

theorem twoTo_pos (k : Nat) : 0 < twoTo k := Nat.two_pow_pos k

theorem ratio_twoTo (k : Nat) : ratio (twoTo k) 1 = 2 ^ k := by
  simp [ratio]

theorem floorLog2_twoTo (k : Nat) : floorLog2 (twoTo k) 1 = k := by
  obtain ⟨low, high⟩ := floorLog2_spec (twoTo_pos k) one_pos
  rw [ratio_twoTo, ← zpow_natCast] at low high
  have below := (zpow_le_zpow_iff_right₀ one_lt_two).mp low
  have above := (zpow_lt_zpow_iff_right₀ one_lt_two).mp high
  omega

/-- The code of a power of two starts an octave. -/
theorem nearestCode_twoTo (k : Nat) : nearestCode (twoTo k) 1 = (k + 1023) * octave := by
  have scale : unit (twoTo k) 1 = k - 52 := by
    rw [unit, floorLog2_twoTo]
    omega
  have exact : ratio (twoTo k * twoTo (-unit (twoTo k) 1).toNat) (1 * twoTo (unit (twoTo k) 1).toNat) = octave := by
    rw [ratio_scaled, ratio_twoTo, scale, zpow_sub₀ two_ne_zero, zpow_natCast, div_div_cancel₀ (by positivity)]
    norm_num
  have wide : 0 < 1 * twoTo (unit (twoTo k) 1).toNat := Nat.mul_pos one_pos (twoTo_pos _)
  have rounded := Nat.le_antisymm (roundHalfEven_le wide exact.le) (le_roundHalfEven wide exact.ge)
  rw [nearestCode_of_pos (twoTo_pos k), rounded, scale]
  have octaves : ((k : Int) - 52 + 1074).toNat = k + 1022 := by omega
  rw [octaves, Nat.add_comm, ← Nat.succ_mul]

variable {k : Nat}

theorem code_twoTo (inRange : k < 1024) : (ofFraction false (twoTo k) 1).code = (k + 1023) * octave := by
  have finite : (k + 1023) * octave < 2047 * octave := Nat.mul_lt_mul_of_pos_right (by omega) (by decide)
  rw [ofFraction, ofCode, nearestCode_twoTo]
  exact Nat.min_eq_left finite.le

theorem ratio_fraction_twoTo (inRange : k < 1024) :
    ratio (ofFraction false (twoTo k) 1).fraction.1 (ofFraction false (twoTo k) 1).fraction.2 = 2 ^ k := by
  have octaves : (k + 1023) * octave / octave = k + 1023 := Nat.mul_div_cancel _ (by decide)
  have start : (k + 1023) * octave % octave = 0 := Nat.mul_mod_left _ _
  have power : (ofFraction false (twoTo k) 1).exponent = (k : Int) - 52 := by
    rw [exponent, code_twoTo inRange, octaves]
    omega
  have leading : (ofFraction false (twoTo k) 1).significand = octave := by
    rw [significand, code_twoTo inRange, octaves, start, if_neg (by omega), Nat.add_zero]
  have scaled := ratio_scaled octave 1 (-((k : Int) - 52))
  rw [neg_neg, one_mul] at scaled
  rw [fraction, power, leading, scaled, ratio, zpow_neg, div_inv_eq_mul, zpow_sub₀ two_ne_zero, zpow_natCast]
  norm_num
  rw [mul_div_cancel₀ _ (by norm_num)]

theorem isFinite_twoTo (inRange : k < 1024) : (ofFraction false (twoTo k) 1).isFinite = true := by
  have finite : (k + 1023) * octave < 2047 * octave := Nat.mul_lt_mul_of_pos_right (by omega) (by decide)
  rw [isFinite, code_twoTo inRange]
  exact decide_eq_true finite

/-- A power of two is the same amount as the natural number. -/
theorem toRat_twoTo (inRange : k < 1024) : (Amount.real (ofFraction false (twoTo k) 1)).toRat? = some (2 ^ k) := by
  have exact := ratio_fraction_twoTo inRange
  have plain : (ofFraction false (twoTo k) 1).negative = false := rfl
  rw [Amount.toRat?, if_pos (isFinite_twoTo inRange), plain, Rat.mkRat_eq_div, ← exact]
  simp [ratio]

theorem fraction_twoTo_pos (k : Nat) : 0 < (ofFraction false (twoTo k) 1).fraction.2 := twoTo_pos _

/-- Powers of two in range are exact, so multiplying one by them rounds nothing. -/
theorem one_mul_twoTo (inRange : k < 1024) :
    (ofFraction false 1 1).mul (ofFraction false (twoTo k) 1) = ofFraction false (twoTo k) 1 := by
  have finite := isFinite_twoTo inRange
  have one_finite := isFinite_twoTo (k := 0) (by decide)
  have unchanged : ratio ((ofFraction false (twoTo 0) 1).fraction.1 * (ofFraction false (twoTo k) 1).fraction.1)
      ((ofFraction false (twoTo 0) 1).fraction.2 * (ofFraction false (twoTo k) 1).fraction.2) = ratio (twoTo k) 1 := by
    have split := congrArg₂ (· * ·) (ratio_fraction_twoTo (k := 0) (by decide)) (ratio_fraction_twoTo inRange)
    simp only [ratio, div_mul_div_comm, pow_zero, one_mul] at split
    rw [ratio_twoTo, ← split]
    simp [ratio]
  have code := nearestCode_congr (Nat.mul_pos (fraction_twoTo_pos 0) (fraction_twoTo_pos k)) one_pos unchanged
  change (ofFraction false (twoTo 0) 1).mul (ofFraction false (twoTo k) 1) = _
  rw [mul, isNan_of_isFinite finite, isInfinite_of_isFinite finite, isNan_of_isFinite one_finite,
    isInfinite_of_isFinite one_finite]
  simp only [Bool.or_self, Bool.false_eq_true, if_false]
  rw [ofFraction, code]
  rfl

end Binary64

end Mender
