import Mathlib.Algebra.Order.Field.Power
import Mathlib.Algebra.Order.Ring.Rat
import Mathlib.Tactic.Linarith
import Mathlib.Tactic.Positivity
import Mender.Number.Binary64

namespace Mender

/-- What is at most a whole number once it is rounded lies below the middle between it and the next one, or on this
middle if the whole number is even. -/
theorem roundHalfEven_le_iff {num den n : Nat} (positive : 0 < den) :
    roundHalfEven num den ≤ n ↔ 2 * num < (2 * n + 1) * den ∨ 2 * num = (2 * n + 1) * den ∧ n % 2 = 0 := by
  have split := Nat.div_add_mod num den
  have small := Nat.mod_lt num positive
  have parity := Nat.mod_lt (num / den) Nat.two_pos
  rcases Nat.lt_trichotomy (num / den) n with below | rfl | above
  · have room : (num / den + 1) * den ≤ n * den := Nat.mul_le_mul_right _ below
    rw [Nat.add_mul, Nat.mul_comm (num / den)] at room
    refine iff_of_true ?_ (Or.inl ?_)
    · simp only [roundHalfEven]
      split_ifs <;> omega
    · rw [Nat.add_mul, Nat.mul_assoc]
      omega
  · rw [Nat.add_mul, Nat.mul_assoc, Nat.mul_comm (num / den)]
    simp only [roundHalfEven]
    split_ifs <;> omega
  · have room : (n + 1) * den ≤ num / den * den := Nat.mul_le_mul_right _ above
    rw [Nat.add_mul, Nat.mul_comm (num / den)] at room
    refine iff_of_false ?_ ?_
    · simp only [roundHalfEven]
      split_ifs <;> omega
    · rw [Nat.add_mul, Nat.mul_assoc]
      omega

abbrev ratio (num den : Nat) : ℚ := num / den

section Rounding

variable {num den num' den' n : Nat} (positive : 0 < den) (positive' : 0 < den')

include positive

theorem roundHalfEven_le_iff_ratio :
    roundHalfEven num den ≤ n ↔ ratio num den < n + 1 / 2 ∨ ratio num den = n + 1 / 2 ∧ n % 2 = 0 := by
  have cast : (0 : ℚ) < den := Nat.cast_pos.mpr positive
  have below : ratio num den < n + 1 / 2 ↔ 2 * num < (2 * n + 1) * den := by
    rw [div_lt_iff₀ cast, ← Nat.cast_lt (α := ℚ)]
    push_cast
    constructor <;> intro less <;> linarith
  have middle : ratio num den = n + 1 / 2 ↔ 2 * num = (2 * n + 1) * den := by
    rw [div_eq_iff cast.ne', ← Nat.cast_inj (R := ℚ)]
    push_cast
    constructor <;> intro same <;> linarith
  rw [roundHalfEven_le_iff positive, below, middle]

theorem roundHalfEven_le (bound : ratio num den ≤ n) : roundHalfEven num den ≤ n :=
  (roundHalfEven_le_iff_ratio positive).mpr (Or.inl (by linarith))

theorem le_roundHalfEven (bound : n ≤ ratio num den) : n ≤ roundHalfEven num den := by
  by_contra below
  obtain ⟨m, rfl⟩ := Nat.exists_eq_succ_of_ne_zero (by omega : n ≠ 0)
  have rounded : roundHalfEven num den ≤ m := by omega
  push_cast at bound
  rcases (roundHalfEven_le_iff_ratio positive).mp rounded with less | ⟨same, -⟩
  · linarith
  · linarith

include positive'

theorem roundHalfEven_mono (order : ratio num den ≤ ratio num' den') :
    roundHalfEven num den ≤ roundHalfEven num' den' := by
  rw [roundHalfEven_le_iff_ratio positive]
  rcases (roundHalfEven_le_iff_ratio positive').mp le_rfl with less | ⟨same, even⟩
  · exact Or.inl (order.trans_lt less)
  · rcases (order.trans_eq same).lt_or_eq with less | same
    · exact Or.inl less
    · exact Or.inr ⟨same, even⟩

end Rounding

namespace Binary64

theorem zpow_eq_div (z : Int) : (2 : ℚ) ^ z = 2 ^ z.toNat / 2 ^ (-z).toNat := by
  have parts : z = (z.toNat : Int) - ((-z).toNat : Int) := by omega
  conv_lhs => rw [parts]
  rw [zpow_sub₀ two_ne_zero, zpow_natCast, zpow_natCast]

section Scale

variable {num den : Nat}

/-- A fraction times a power of two is written with whole powers above and below the line. -/
theorem ratio_scaled (num den : Nat) (z : Int) :
    ratio (num * twoTo (-z).toNat) (den * twoTo z.toNat) = ratio num den / 2 ^ z := by
  rw [zpow_eq_div, ratio, twoTo, twoTo, Nat.pow_eq, Nat.pow_eq]
  push_cast
  rw [mul_div_mul_comm, div_div_eq_mul_div, mul_div_assoc]

/-- A positive fraction lies from this power of two to below the next. -/
theorem floorLog2_spec (positive : 0 < num) (positive' : 0 < den) :
    2 ^ floorLog2 num den ≤ ratio num den ∧ ratio num den < 2 ^ (floorLog2 num den + 1) := by
  have cast : (0 : ℚ) < den := Nat.cast_pos.mpr positive'
  have numLow : (2 : ℚ) ^ num.log2 ≤ num := mod_cast Nat.log2_self_le positive.ne'
  have numHigh : (num : ℚ) < 2 ^ (num.log2 + 1) := mod_cast Nat.lt_log2_self
  have denLow : (2 : ℚ) ^ den.log2 ≤ den := mod_cast Nat.log2_self_le positive'.ne'
  have denHigh : (den : ℚ) < 2 ^ (den.log2 + 1) := mod_cast Nat.lt_log2_self
  have guess : (2 : ℚ) ^ ((num.log2 : Int) - den.log2) = 2 ^ num.log2 / 2 ^ den.log2 := by
    rw [zpow_sub₀ two_ne_zero, zpow_natCast, zpow_natCast]
  -- The quotient of the powers is at most a factor of two off, one way or the other.
  have high : ratio num den < 2 ^ ((num.log2 : Int) - den.log2 + 1) := by
    rw [zpow_add_one₀ two_ne_zero, guess, div_mul_eq_mul_div, ← pow_succ]
    exact div_lt_div₀ numHigh denLow (by positivity) (by positivity)
  have low : 2 ^ ((num.log2 : Int) - den.log2 - 1) ≤ ratio num den := by
    rw [zpow_sub_one₀ two_ne_zero, guess, ← div_eq_mul_inv, div_div, ← pow_succ]
    exact div_le_div₀ (by positivity) numLow cast denHigh.le
  have reached_iff : den * twoTo ((num.log2 : Int) - den.log2).toNat ≤ num * twoTo (-((num.log2 : Int) - den.log2)).toNat ↔
      2 ^ ((num.log2 : Int) - den.log2) ≤ ratio num den := by
    rw [zpow_eq_div, div_le_div_iff₀ (by positivity) cast, twoTo, twoTo, Nat.pow_eq, Nat.pow_eq, ← Nat.cast_le (α := ℚ)]
    push_cast
    rw [mul_comm (den : ℚ)]
  unfold floorLog2
  simp only [reached_iff]
  split_ifs with reached
  · exact ⟨reached, high⟩
  · rw [Int.sub_add_cancel]
    exact ⟨low, not_le.mp reached⟩

/-- The exponent of the unit of a fraction: the numbers about it are whole multiples of two to this power. -/
def unit (num den : Nat) : Int := max (floorLog2 num den - 52) (-1074)

theorem nearestCode_of_pos (positive : 0 < num) (den : Nat) :
    nearestCode num den = roundHalfEven (num * twoTo (-unit num den).toNat) (den * twoTo (unit num den).toNat) +
      (unit num den + 1074).toNat * octave := by
  rw [nearestCode, if_neg positive.ne']
  rfl

/-- A fraction holds less than two octaves of its unit, and one at least unless the unit is the least there is. -/
theorem ratio_div_unit (positive : 0 < num) (positive' : 0 < den) :
    ratio num den / 2 ^ unit num den ≤ (2 * octave : Nat) ∧
      (-1074 < unit num den → (octave : Nat) ≤ ratio num den / 2 ^ unit num den) := by
  obtain ⟨low, high⟩ := floorLog2_spec positive positive'
  have scale : (0 : ℚ) < 2 ^ unit num den := by positivity
  have size : ((octave : Nat) : ℚ) = 2 ^ (52 : Int) := by norm_num
  constructor
  · have fits : floorLog2 num den + 1 ≤ 53 + unit num den := by
      unfold unit
      omega
    rw [div_le_iff₀ scale, Nat.cast_mul, size]
    calc ratio num den ≤ 2 ^ (floorLog2 num den + 1) := high.le
      _ ≤ 2 ^ (53 + unit num den) := zpow_le_zpow_right₀ one_le_two fits
      _ = (2 : Nat) * 2 ^ (52 : Int) * 2 ^ unit num den := by
        rw [zpow_add₀ two_ne_zero]
        norm_num
  · intro above
    have reached : floorLog2 num den = 52 + unit num den := by
      unfold unit at above ⊢
      omega
    rw [le_div_iff₀ scale, size, ← zpow_add₀ two_ne_zero, ← reached]
    exact low

end Scale

variable {num den num' den' : Nat}

theorem unit_mono (positive : 0 < num) (positive' : 0 < num') (below : 0 < den) (below' : 0 < den')
    (order : ratio num den ≤ ratio num' den') : unit num den ≤ unit num' den' := by
  have powers := (floorLog2_spec positive below).1.trans_lt (order.trans_lt (floorLog2_spec positive' below').2)
  have less := (zpow_lt_zpow_iff_right₀ one_lt_two).mp powers
  unfold unit
  omega

/-- Rounding keeps the order of fractions. -/
theorem nearestCode_mono (below : 0 < den) (below' : 0 < den') (order : ratio num den ≤ ratio num' den') :
    nearestCode num den ≤ nearestCode num' den' := by
  rcases Nat.eq_zero_or_pos num with rfl | positive
  · exact Nat.zero_le _
  have positive' : 0 < num' := by
    have some : 0 < ratio num den := by positivity
    have some' := some.trans_le order
    rwa [ratio, div_pos_iff_of_pos_right (Nat.cast_pos.mpr below'), Nat.cast_pos] at some'
  have wide : ∀ (d : Nat) (z : Int), 0 < d → 0 < d * twoTo z.toNat := fun d z some =>
    Nat.mul_pos some (Nat.two_pow_pos _)
  rw [nearestCode_of_pos positive, nearestCode_of_pos positive']
  rcases (unit_mono positive positive' below below' order).eq_or_lt with same | finer
  · rw [same]
    refine Nat.add_le_add_right (roundHalfEven_mono (wide _ _ below) (wide _ _ below') ?_) _
    rw [ratio_scaled, ratio_scaled]
    exact div_le_div_of_nonneg_right order (by positivity)
  · -- Two octaves of the finer unit are one octave of the next, where the other fraction starts.
    have least : -1074 ≤ unit num den := le_max_right _ _
    have most : roundHalfEven (num * twoTo (-unit num den).toNat) (den * twoTo (unit num den).toNat) ≤ 2 * octave := by
      refine roundHalfEven_le (wide _ _ below) ?_
      rw [ratio_scaled]
      exact (ratio_div_unit positive below).1
    have start : octave ≤ roundHalfEven (num' * twoTo (-unit num' den').toNat) (den' * twoTo (unit num' den').toNat) := by
      refine le_roundHalfEven (wide _ _ below') ?_
      rw [ratio_scaled]
      exact (ratio_div_unit positive' below').2 (least.trans_lt finer)
    have next := Nat.mul_le_mul_right octave
      (by omega : (unit num den + 1074).toNat + 1 ≤ (unit num' den' + 1074).toNat)
    rw [Nat.add_mul, Nat.one_mul] at next
    omega

theorem rank_ofFraction (num den : Nat) :
    (ofFraction false num den).rank = min (nearestCode num den) infinityCode := by
  simp [ofFraction, ofCode, rank]

theorem rank_ofFraction_mono (below : 0 < den) (below' : 0 < den') (order : ratio num den ≤ ratio num' den') :
    (ofFraction false num den).rank ≤ (ofFraction false num' den').rank := by
  have codes := nearestCode_mono below below' order
  rw [rank_ofFraction, rank_ofFraction]
  omega

/-- A fraction from zero to one is rounded to a number from zero to one. -/
theorem rank_ofFraction_le_one (below : 0 < den) (atMost : num ≤ den) :
    0 ≤ (ofFraction false num den).rank ∧ (ofFraction false num den).rank ≤ oneCode := by
  have order : ratio num den ≤ ratio 1 1 := by
    rw [ratio, ratio, Nat.cast_one, div_one]
    exact div_le_one_of_le₀ (Nat.cast_le.mpr atMost) (Nat.cast_nonneg _)
  refine ⟨?_, ?_⟩
  · rw [rank_ofFraction]
    omega
  · exact (rank_ofFraction_mono below one_pos order).trans_eq (by decide)

end Binary64

end Mender
