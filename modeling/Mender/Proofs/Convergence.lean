import Mender.Convergence
import Mender.Proofs.Number.Magnitude

namespace Mender

/-- Fixes per defect less one tenth for each step after the first, in exact arithmetic. -/
def exactShare (defects fixes steps : Int) : ℚ := fixes / defects - (steps - 1) / 10

/-- How sure a clean result is, in exact arithmetic. -/
def exactConfidence (defects fixes steps : Int) : ℚ :=
  if defects = 0 then 1 else max (1 / 2) (min 1 (exactShare defects fixes steps))

section Exact

variable {defects fixes steps : Int} (started : 1 ≤ steps) (bound : fixes + steps ≤ defects + 1) (some : 0 < defects)

include started bound some

theorem exactShare_le_one : exactShare defects fixes steps ≤ 1 := by
  have positive : (0 : ℚ) < defects := Int.cast_pos.mpr some
  have fewer : (fixes : ℚ) ≤ defects := Int.cast_le.mpr (by omega)
  have extra : (1 : ℚ) ≤ steps := mod_cast started
  have ratio : (fixes : ℚ) / defects ≤ 1 := (div_le_one positive).mpr fewer
  unfold exactShare
  linarith

theorem exactShare_eq_one_iff : exactShare defects fixes steps = 1 ↔ fixes = defects ∧ steps = 1 := by
  have positive : (0 : ℚ) < defects := Int.cast_pos.mpr some
  constructor
  · intro whole
    have extra : (1 : ℚ) ≤ steps := mod_cast started
    have all : 1 ≤ (fixes : ℚ) / defects := by
      unfold exactShare at whole
      linarith
    have fixed : defects ≤ fixes := Int.cast_le.mp ((one_le_div positive).mp all)
    omega
  · rintro ⟨rfl, rfl⟩
    rw [exactShare, div_self positive.ne']
    norm_num

/-- Full confidence is for sessions that heal every defect in a single step. -/
theorem exactConfidence_eq_one_iff : exactConfidence defects fixes steps = 1 ↔ fixes = defects ∧ steps = 1 := by
  rw [← exactShare_eq_one_iff started bound some, exactConfidence, if_neg some.ne',
    min_eq_right (exactShare_le_one started bound some)]
  constructor
  · intro sure
    rcases max_choice (1 / 2) (exactShare defects fixes steps) with half | share
    · rw [half] at sure
      norm_num at sure
    · exact share.symm.trans sure
  · intro whole
    rw [whole]
    norm_num

/-- Every other success lies between a half and one, one excluded: either a defect was left over or
a second step was needed. -/
theorem exactConfidence_mem (unsure : ¬(fixes = defects ∧ steps = 1)) :
    1 / 2 ≤ exactConfidence defects fixes steps ∧ exactConfidence defects fixes steps < 1 := by
  have differs := mt (exactConfidence_eq_one_iff started bound some).mp unsure
  rw [exactConfidence, if_neg some.ne'] at differs ⊢
  refine ⟨le_max_left _ _, lt_of_le_of_ne (max_le (by norm_num) (min_le_left _ _)) differs⟩

end Exact

namespace Binary64

def belowOne : Binary64 := ofFraction false (twoTo 53 - 1) (twoTo 53)

theorem magnitude_belowOne : belowOne.magnitude = ratio (twoTo 53 - 1) (twoTo 53) := by
  have fraction : belowOne.fraction = (twoTo 53 - 1, twoTo 53) := by decide +kernel
  rw [magnitude, fraction]

theorem magnitude_one : (ofFraction false 1 1).magnitude = 1 := by
  have exact := magnitude_twoTo (k := 0) (by decide)
  rwa [pow_zero] at exact

/-- A fraction of numbers that binary64 can tell apart is rounded to one only if it is one. -/
theorem ofFraction_code_le_belowOne {num den : Nat} (less : num < den) (size : den ≤ twoTo 53) :
    (ofFraction false num den).code ≤ belowOne.code := by
  have below : 0 < den := Nat.zero_lt_of_lt less
  have positive : (0 : ℚ) < den := Nat.cast_pos.mpr below
  have positive' : (0 : ℚ) < twoTo 53 := Nat.cast_pos.mpr (twoTo_pos 53)
  refine ofFraction_code_le below ?_
  rw [magnitude_belowOne, ratio, ratio, div_le_div_iff₀ positive positive', ← Nat.cast_mul, ← Nat.cast_mul,
    Nat.cast_le, Nat.sub_mul, Nat.one_mul, Nat.mul_comm (twoTo 53)]
  have gap : (num + 1) * twoTo 53 ≤ den * twoTo 53 := Nat.mul_le_mul_right _ less
  rw [Nat.add_mul, Nat.one_mul] at gap
  generalize twoTo 53 = limit at gap size ⊢
  omega

theorem magnitude_oneTenth : oneTenth.magnitude = ratio 7205759403792794 (twoTo 56) := by
  have fraction : oneTenth.fraction = (7205759403792794, twoTo 56) := by decide +kernel
  rw [magnitude, fraction]

theorem ratio_one (n : Nat) : ratio n 1 = n := by rw [ratio, Nat.cast_one, div_one]

/-- A part of a whole is not above one. -/
theorem ratio_le_magnitude_one {num den : Nat} (below : 0 < den) (part : num ≤ den) :
    ratio num den ≤ (ofFraction false 1 1).magnitude := by
  rw [magnitude_one, ratio, div_le_one (Nat.cast_pos.mpr below)]
  exact Nat.cast_le.mpr part

theorem isFinite_part {num den : Nat} (below : 0 < den) (part : num ≤ den) :
    (ofFraction false num den).isFinite = true :=
  isFinite_ofFraction below (by decide) (ratio_le_magnitude_one below part)

section Whole

variable {n : Nat} (size : n ≤ twoTo 53)

include size

theorem ratio_le_limit : ratio n 1 ≤ (ofFraction false (twoTo 53) 1).magnitude := by
  rw [magnitude_twoTo (by decide), ratio_one]
  exact mod_cast size

theorem isFinite_whole : (ofFraction false n 1).isFinite = true :=
  isFinite_ofFraction one_pos (isFinite_twoTo (k := 53) (by decide)) (ratio_le_limit size)

end Whole

/-- What is taken off for some more steps is one tenth at least. -/
theorem mul_oneTenth {extra : Nat} (some : 0 < extra) (size : extra ≤ twoTo 53) :
    (oneTenth.mul (ofFraction false extra 1)).negative = false ∧
      (oneTenth.mul (ofFraction false extra 1)).isFinite = true ∧
      oneTenth.magnitude ≤ (oneTenth.mul (ofFraction false extra 1)).magnitude := by
  have least : (ofFraction false 1 1).magnitude ≤ ratio extra 1 := by
    rw [magnitude_one, ratio_one]
    exact mod_cast some
  have one_le := magnitude_mono (code_le_ofFraction one_pos (by decide) least)
  have le_limit := magnitude_mono (ofFraction_code_le one_pos (ratio_le_limit size))
  rw [magnitude_one] at one_le
  obtain ⟨num, den, below, exact, same⟩ :=
    mul_eq_ofFraction (x := oneTenth) (by decide) (isFinite_whole size) rfl rfl
  have small : oneTenth.magnitude ≤ 1 := by
    rw [magnitude_oneTenth]
    norm_num
  rw [same]
  refine ⟨rfl, isFinite_ofFraction below (isFinite_twoTo (k := 53) (by decide)) ?_, ?_⟩
  · rw [exact]
    exact (mul_le_of_le_one_left (magnitude_nonneg _) small).trans le_limit
  · refine magnitude_mono (code_le_ofFraction below (by decide) ?_)
    rw [exact]
    exact le_mul_of_one_le_right (magnitude_nonneg _) one_le

/-- Numbers from a half up to one have ranks from zero to that of one. -/
theorem rank_mem_of_clamped {x : Binary64} (half : (ofFraction false 1 2).le x = true)
    (below : x.lt (ofFraction false 1 1) = true) : 0 ≤ x.rank ∧ x.rank ≤ oneCode := by
  have least : 0 ≤ (ofFraction false 1 2).rank := by decide
  have most : (ofFraction false 1 1).rank = oneCode := by decide
  simp only [lt, le, Bool.and_eq_true, decide_eq_true_eq] at half below
  exact ⟨least.trans half.2, most ▸ below.2.le⟩

/-- A number below one stays there when it is kept between a half and one. -/
theorem clamped_lt_one {x : Binary64} (below : x.lt (ofFraction false 1 1) = true) :
    (ofFraction false 1 2).le (greatest (ofFraction false 1 2) (least (ofFraction false 1 1) x)) = true ∧
      (greatest (ofFraction false 1 2) (least (ofFraction false 1 1) x)).lt (ofFraction false 1 1) = true := by
  rw [least, if_pos below, greatest]
  split_ifs with above
  · simp only [lt, le, Bool.and_eq_true, decide_eq_true_eq] at above ⊢
    exact ⟨⟨above.1, above.2.le⟩, by simpa [lt] using below⟩
  · decide

/-- A difference up to the last number below one does not reach one when it is rounded. -/
theorem sub_lt_one {x y : Binary64} (finite : x.isFinite = true) (finite' : y.isFinite = true)
    (sign : x.negative = false) (sign' : y.negative = false)
    (bound : x.magnitude - y.magnitude ≤ belowOne.magnitude) : (x.sub y).lt (ofFraction false 1 1) = true := by
  rw [magnitude_belowOne] at bound
  obtain ⟨number, rank⟩ := rank_sub_le finite finite' sign sign' (twoTo_pos 53) bound
  have less : belowOne.rank < (ofFraction false 1 1).rank := by decide
  have number' : (ofFraction false 1 1).isNan = false := isNan_ofFraction ..
  rw [lt, number, number', decide_eq_true (rank.trans_lt less)]
  rfl

theorem quotient?_natCast {num den : Nat} (finite : (ofFraction false num den).isFinite = true) :
    quotient? num den = some (ofFraction false num den) := by
  have sign (n : Nat) : decide ((n : Int) < 0) = false := decide_eq_false (Int.not_lt.mpr (Int.natCast_nonneg n))
  simp [quotient?, sign, finite]

theorem ofInt?_natCast {n : Nat} (finite : (ofFraction false n 1).isFinite = true) :
    ofInt? n = some (ofFraction false n 1) := by
  have sign : decide ((n : Int) < 0) = false := decide_eq_false (Int.not_lt.mpr (Int.natCast_nonneg n))
  simp [ofInt?, sign, finite]

/-- Fixes per defect less what is taken off for some more steps is one only if every defect has its fix and no step is
added. -/
theorem share_lt_one {defects fixes extra : Nat} (some : 0 < defects) (bound : fixes + extra ≤ defects)
    (size : defects ≤ twoTo 53) (unsure : ¬(fixes = defects ∧ extra = 0)) :
    ((ofFraction false fixes defects).sub (oneTenth.mul (ofFraction false extra 1))).lt (ofFraction false 1 1) =
      true := by
  have part : fixes ≤ defects := by omega
  have finite := isFinite_part some part
  rcases Nat.eq_zero_or_pos extra with rfl | more
  · have less : fixes < defects := by omega
    have share := magnitude_mono (ofFraction_code_le_belowOne less size)
    exact sub_lt_one finite (by decide +kernel) rfl rfl ((sub_le_self _ (magnitude_nonneg _)).trans share)
  · obtain ⟨sign, finite', tenth⟩ := mul_oneTenth more (by omega)
    refine sub_lt_one finite finite' rfl sign ?_
    have share := magnitude_mono (ofFraction_code_le some (ratio_le_magnitude_one some part))
    have gap : 1 - oneTenth.magnitude ≤ belowOne.magnitude := by
      rw [magnitude_oneTenth, magnitude_belowOne]
      norm_num
    rw [magnitude_one] at share
    linarith

theorem share_of_one {n : Nat} (some : 0 < n) :
    (ofFraction false n n).sub (oneTenth.mul (ofFraction false 0 1)) = ofFraction false 1 1 := by
  have whole : nearestCode n n = nearestCode 1 1 := by
    refine nearestCode_congr some one_pos ?_
    rw [ratio, ratio, div_self (Nat.cast_ne_zero.mpr some.ne'), Nat.cast_one, div_one]
  rw [ofFraction, whole]
  decide +kernel

end Binary64

open Binary64

/-- A clean result is surely healed if there is one step with a fix for each defect. Otherwise it is sure to a half at
least, and not fully. -/
theorem healingConfidence_clean {defects fixes steps : Nat} (started : 1 ≤ steps) (bound : fixes + steps ≤ defects + 1)
    (some : 0 < defects) (size : defects ≤ twoTo 53) :
    ∃ c : Confidence, healingConfidence true defects fixes steps = .ok c.value ∧
      if fixes = defects ∧ steps = 1 then c.value = ofFraction false 1 1
      else (ofFraction false 1 2).le c.value ∧ c.value.lt (ofFraction false 1 1) := by
  obtain ⟨extra, rfl⟩ := Nat.exists_eq_add_of_le' started
  have finite := isFinite_part some (by omega : fixes ≤ defects)
  have finite' := isFinite_whole (by omega : extra ≤ twoTo 53)
  have before : ((extra + 1 : Nat) : Int) - 1 = extra := by omega
  have value : healingConfidence true defects fixes (extra + 1 : Nat) =
      .ok (greatest (ofFraction false 1 2) (least (ofFraction false 1 1)
        ((ofFraction false fixes defects).sub (oneTenth.mul (ofFraction false extra 1))))) := by
    rw [healingConfidence, quotient?_natCast finite, before, ofInt?_natCast finite']
    simp [some.ne']
  by_cases sure : fixes = defects ∧ extra + 1 = 1
  · obtain ⟨rfl, none⟩ := sure
    obtain rfl : extra = 0 := by omega
    rw [share_of_one some] at value
    refine ⟨⟨ofFraction false 1 1, by decide, by decide⟩, value, ?_⟩
    rw [if_pos ⟨rfl, rfl⟩]
  · have share := share_lt_one some (by omega) size (by omega : ¬(fixes = defects ∧ extra = 0))
    obtain ⟨half, below⟩ := clamped_lt_one share
    obtain ⟨zero_le, le_one⟩ := rank_mem_of_clamped half below
    refine ⟨⟨_, zero_le, le_one⟩, value, ?_⟩
    rw [if_neg sure]
    exact ⟨half, below⟩

end Mender
