import Mender.Proofs.Number.PowerOfTwo

namespace Mender

namespace Binary64

def magnitude (x : Binary64) : ℚ := ratio x.fraction.1 x.fraction.2

variable {x y : Binary64}

theorem fraction_den_pos (x : Binary64) : 0 < x.fraction.2 := twoTo_pos _

theorem magnitude_nonneg (x : Binary64) : 0 ≤ x.magnitude := by
  unfold magnitude ratio
  positivity

/-- The sign does not matter for the magnitude. -/
theorem magnitude_congr (same : x.code = y.code) : x.magnitude = y.magnitude := by
  simp only [magnitude, fraction, significand, exponent, same]

theorem magnitude_eq (x : Binary64) : x.magnitude = x.significand * 2 ^ x.exponent := by
  have scaled := ratio_scaled x.significand 1 (-x.exponent)
  rw [neg_neg, one_mul] at scaled
  rw [magnitude, fraction, scaled, ratio, Nat.cast_one, div_one, zpow_neg, div_inv_eq_mul]

theorem neg_1074_le_exponent (x : Binary64) : -1074 ≤ x.exponent := by
  unfold exponent
  omega

theorem significand_lt (x : Binary64) : x.significand < 2 * octave := by
  have rest := Nat.mod_lt x.code (by decide : 0 < octave)
  have split := Nat.div_add_mod x.code octave
  unfold significand
  split_ifs with subnormal
  · rw [subnormal] at split
    omega
  · omega

theorem octave_le_significand (normal : -1074 < x.exponent) : octave ≤ x.significand := by
  unfold exponent at normal
  rw [significand, if_neg (by omega)]
  exact Nat.le_add_right _ _

/-- A code tells how many units there are and which unit it is. -/
theorem code_eq (x : Binary64) : x.code = x.significand + (x.exponent + 1074).toNat * octave := by
  have split := Nat.div_add_mod x.code octave
  unfold significand exponent
  generalize x.code / octave = octaves at split ⊢
  split_ifs with subnormal
  · simp [subnormal]
  · obtain ⟨n, rfl⟩ := Nat.exists_eq_succ_of_ne_zero subnormal
    have place : (((max n.succ 1 : Nat) : Int) - 1075 + 1074).toNat = n := by omega
    rw [place, Nat.add_right_comm, Nat.add_comm octave, ← Nat.succ_mul, Nat.mul_comm, split]

/-- The unit of a fraction that holds less than two octaves of it, and one at least unless it is the least unit. -/
theorem unit_eq {num den : Nat} {z : Int} (positive : 0 < num) (positive' : 0 < den) (least : -1074 ≤ z)
    (low : -1074 < z → 2 ^ (52 + z) ≤ ratio num den) (high : ratio num den < 2 ^ (53 + z)) : unit num den = z := by
  obtain ⟨below, above⟩ := floorLog2_spec positive positive'
  have most := (zpow_lt_zpow_iff_right₀ one_lt_two).mp (below.trans_lt high)
  unfold unit
  rcases least.eq_or_lt with same | normal
  · omega
  · have few := (zpow_lt_zpow_iff_right₀ one_lt_two).mp ((low normal).trans_lt above)
    omega

theorem unit_fraction (positive : 0 < x.significand) : unit x.fraction.1 x.fraction.2 = x.exponent := by
  have scale : (0 : ℚ) < 2 ^ x.exponent := by positivity
  refine unit_eq (Nat.mul_pos positive (twoTo_pos _)) x.fraction_den_pos x.neg_1074_le_exponent (fun normal => ?_) ?_
  · have units : ((octave : Nat) : ℚ) ≤ x.significand := Nat.cast_le.mpr (octave_le_significand normal)
    have size : ((octave : Nat) : ℚ) = 2 ^ (52 : Int) := by norm_num
    calc (2 : ℚ) ^ (52 + x.exponent) = (octave : Nat) * 2 ^ x.exponent := by rw [zpow_add₀ two_ne_zero, size]
      _ ≤ x.significand * 2 ^ x.exponent := mul_le_mul_of_nonneg_right units scale.le
      _ = x.magnitude := x.magnitude_eq.symm
  · have units : (x.significand : ℚ) < (2 * octave : Nat) := Nat.cast_lt.mpr x.significand_lt
    have size : ((2 * octave : Nat) : ℚ) = 2 ^ (53 : Int) := by norm_num
    calc x.magnitude = x.significand * 2 ^ x.exponent := x.magnitude_eq
      _ < (2 * octave : Nat) * 2 ^ x.exponent := mul_lt_mul_of_pos_right units scale
      _ = 2 ^ (53 + x.exponent) := by rw [zpow_add₀ two_ne_zero, size]

/-- A number is the one that is nearest to its own fraction. -/
theorem nearestCode_fraction (x : Binary64) : nearestCode x.fraction.1 x.fraction.2 = x.code := by
  have code := x.code_eq
  rcases Nat.eq_zero_or_pos x.significand with none | positive
  · have low : x.exponent ≤ -1074 := by
      by_contra normal
      have units := octave_le_significand (not_le.mp normal)
      rw [none] at units
      exact absurd units (by decide)
    have zero : (x.exponent + 1074).toNat = 0 := by omega
    have nothing : x.fraction.1 = 0 := by rw [fraction, none, Nat.zero_mul]
    rw [code, none, zero, nothing, nearestCode, if_pos rfl]
    rfl
  · have num : 0 < x.fraction.1 := Nat.mul_pos positive (twoTo_pos _)
    have scale := unit_fraction positive
    have exact : ratio (x.fraction.1 * twoTo (-unit x.fraction.1 x.fraction.2).toNat)
        (x.fraction.2 * twoTo (unit x.fraction.1 x.fraction.2).toNat) = x.significand := by
      rw [ratio_scaled, scale, ← magnitude, magnitude_eq, mul_div_cancel_right₀ _ (by positivity)]
    have wide : 0 < x.fraction.2 * twoTo (unit x.fraction.1 x.fraction.2).toNat :=
      Nat.mul_pos x.fraction_den_pos (twoTo_pos _)
    have rounded := Nat.le_antisymm (roundHalfEven_le wide exact.le) (le_roundHalfEven wide exact.ge)
    rw [nearestCode_of_pos num, rounded, scale]
    exact code.symm

/-- The codes order the magnitudes. -/
theorem magnitude_mono (order : x.code ≤ y.code) : x.magnitude ≤ y.magnitude := by
  by_contra less
  have codes := nearestCode_mono y.fraction_den_pos x.fraction_den_pos (not_le.mp less).le
  rw [nearestCode_fraction, nearestCode_fraction] at codes
  exact less (magnitude_congr (Nat.le_antisymm order codes)).le

theorem isNan_ofFraction (negative : Bool) (num den : Nat) : (ofFraction negative num den).isNan = false :=
  decide_eq_false (Nat.not_lt.mpr (Nat.min_le_right _ _))

/-- The product of two numbers that are not negative, before and after the rounding. -/
theorem mul_eq_ofFraction (finite : x.isFinite = true) (finite' : y.isFinite = true) (sign : x.negative = false)
    (sign' : y.negative = false) :
    ∃ num den, 0 < den ∧ ratio num den = x.magnitude * y.magnitude ∧ x.mul y = ofFraction false num den := by
  refine ⟨x.fraction.1 * y.fraction.1, x.fraction.2 * y.fraction.2,
    Nat.mul_pos x.fraction_den_pos y.fraction_den_pos, ?_, ?_⟩
  · rw [magnitude, magnitude, ratio, ratio, ratio, div_mul_div_comm, Nat.cast_mul, Nat.cast_mul]
  · simp [mul, isNan_of_isFinite finite, isInfinite_of_isFinite finite, isNan_of_isFinite finite',
      isInfinite_of_isFinite finite', sign, sign']

/-- The difference of two numbers that are not negative, before and after the rounding. -/
theorem sub_cases (finite : x.isFinite = true) (finite' : y.isFinite = true) (sign : x.negative = false)
    (sign' : y.negative = false) :
    (∃ num den, 0 < den ∧ ratio num den = x.magnitude - y.magnitude ∧ x.sub y = ofFraction false num den) ∨
      (∃ num den, x.sub y = ofFraction true num den) ∨ x.sub y = ofCode false 0 := by
  have opposite : x.negative ≠ y.neg.negative := by simp [neg, sign, sign']
  have number : y.neg.isNan = false := isNan_of_isFinite finite'
  have bounded : y.neg.isInfinite = false := isInfinite_of_isFinite finite'
  have fraction : y.neg.fraction = y.fraction := rfl
  have below : (0 : ℚ) < x.fraction.2 := Nat.cast_pos.mpr x.fraction_den_pos
  have below' : (0 : ℚ) < y.fraction.2 := Nat.cast_pos.mpr y.fraction_den_pos
  simp only [sub, add, isNan_of_isFinite finite, isInfinite_of_isFinite finite, number, bounded, fraction, opposite,
    Bool.or_self, Bool.false_eq_true, if_false]
  split_ifs with less greater
  · refine Or.inl ⟨_, _, Nat.mul_pos x.fraction_den_pos y.fraction_den_pos, ?_, by rw [sign]⟩
    rw [magnitude, magnitude, ratio, ratio, ratio, div_sub_div _ _ below.ne' below'.ne', Nat.cast_sub less.le]
    push_cast
    rw [mul_comm (y.fraction.1 : ℚ)]
  · refine Or.inr (Or.inl ⟨_, _, by rw [neg, sign']; rfl⟩)
  · exact Or.inr (Or.inr rfl)

/-- A difference is at most what a fraction is rounded to that is at least as great. -/
theorem rank_sub_le {num den : Nat} (finite : x.isFinite = true) (finite' : y.isFinite = true)
    (sign : x.negative = false) (sign' : y.negative = false) (below : 0 < den)
    (bound : x.magnitude - y.magnitude ≤ ratio num den) :
    (x.sub y).isNan = false ∧ (x.sub y).rank ≤ (ofFraction false num den).rank := by
  have nonneg : 0 ≤ (ofFraction false num den).rank := Int.natCast_nonneg _
  obtain ⟨_, _, below', exact, same⟩ | ⟨_, _, same⟩ | same := sub_cases finite finite' sign sign'
  · rw [same]
    exact ⟨isNan_ofFraction .., rank_ofFraction_mono below' below (exact.trans_le bound)⟩
  · rw [same]
    exact ⟨isNan_ofFraction .., (Int.neg_nonpos_of_nonneg (Int.natCast_nonneg _)).trans nonneg⟩
  · rw [same]
    exact ⟨rfl, nonneg⟩

section Bounds

variable {num den : Nat} (below : 0 < den)

include below

/-- A fraction is rounded to a number that is at least as great as any number that it is not below. -/
theorem code_le_ofFraction (finite : x.isFinite = true) (bound : x.magnitude ≤ ratio num den) :
    x.code ≤ (ofFraction false num den).code := by
  have codes := nearestCode_mono x.fraction_den_pos below bound
  rw [nearestCode_fraction] at codes
  simp only [isFinite, decide_eq_true_eq] at finite
  exact le_min codes finite.le

/-- A fraction is rounded to a number that is at most as great as any number that it is not above. -/
theorem ofFraction_code_le (bound : ratio num den ≤ x.magnitude) : (ofFraction false num den).code ≤ x.code := by
  have codes := nearestCode_mono below x.fraction_den_pos bound
  rw [nearestCode_fraction] at codes
  exact (Nat.min_le_left _ _).trans codes

theorem isFinite_ofFraction (finite : x.isFinite = true) (bound : ratio num den ≤ x.magnitude) :
    (ofFraction false num den).isFinite = true := by
  have order := ofFraction_code_le below bound
  simp only [isFinite, decide_eq_true_eq] at finite ⊢
  exact order.trans_lt finite

end Bounds

theorem magnitude_twoTo {k : Nat} (inRange : k < 1024) : (ofFraction false (twoTo k) 1).magnitude = 2 ^ k :=
  ratio_fraction_twoTo inRange

end Binary64

end Mender
