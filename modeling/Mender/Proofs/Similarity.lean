import Mathlib.Algebra.Order.Field.Basic
import Mathlib.Algebra.Order.Ring.Rat
import Mender.Fix
import Mender.Proofs.Number.Rounding
import Mender.Proofs.Text.EditDistance

namespace Mender

section Distance

variable {α : Type} [DecidableEq α]

/-- The longer sequence has room for every edit: each of its items goes, comes or is replaced. -/
theorem editDistance_le_max (source target : List α) : editDistance source target ≤ max source.length target.length := by
  induction source using List.reverseRecOn generalizing target with
  | nil =>
    rw [editDistance_nil_left]
    exact Nat.le_max_right _ _
  | append_singleton source x ih =>
    cases target using List.reverseRecOn with
    | nil =>
      rw [editDistance_nil_right]
      exact Nat.le_max_left _ _
    | append_singleton target y =>
      have rest := ih target
      have least := editDistance_concat_concat source target x y
      have atMost : (if x = y then 0 else 1) ≤ 1 := by split_ifs <;> omega
      simp only [List.length_append, List.length_singleton]
      omega

theorem editDistance_eq_zero_iff {source target : List α} : editDistance source target = 0 ↔ source = target := by
  constructor
  · intro none
    obtain ⟨script, run, size⟩ := exists_script source target
    obtain rfl : script = [] := List.eq_nil_of_length_eq_zero (size.trans none)
    exact Option.some.inj run
  · rintro rfl
    exact editDistance_self source

end Distance

/-- The exact share of the longer text that is kept; two empty texts are alike. -/
def likeness (a b : Text) : ℚ :=
  if longerLength a b = 0 then 1 else ((longerLength a b : ℚ) - editDistance a b) / longerLength a b

theorem editDistance_le_longerLength (a b : Text) : editDistance a b ≤ longerLength a b := editDistance_le_max a b

theorem likeness_nonneg (a b : Text) : 0 ≤ likeness a b := by
  have room : (editDistance a b : ℚ) ≤ longerLength a b := Nat.cast_le.mpr (editDistance_le_longerLength a b)
  unfold likeness
  split_ifs
  · exact zero_le_one
  · exact div_nonneg (sub_nonneg.mpr room) (Nat.cast_nonneg _)

theorem likeness_le_one (a b : Text) : likeness a b ≤ 1 := by
  unfold likeness
  split_ifs
  · exact le_rfl
  · exact div_le_one_of_le₀ (sub_le_self _ (Nat.cast_nonneg _)) (Nat.cast_nonneg _)

theorem likeness_lt_one {a b : Text} (differ : a ≠ b) : likeness a b < 1 := by
  have edited : 0 < editDistance a b := Nat.pos_of_ne_zero (mt editDistance_eq_zero_iff.mp differ)
  have longer : 0 < longerLength a b := edited.trans_le (editDistance_le_longerLength a b)
  rw [likeness, if_neg longer.ne', div_lt_one (Nat.cast_pos.mpr longer)]
  exact sub_lt_self _ (Nat.cast_pos.mpr edited)

/-- The similarity is the exact share, rounded. -/
theorem similarity_rounds (a b : Text) : ∃ num den : Nat, 0 < den ∧ num ≤ den ∧ likeness a b = num / den ∧
    similarity a b = Binary64.ofFraction false num den := by
  unfold likeness similarity
  split_ifs with empty
  · exact ⟨1, 1, one_pos, le_rfl, by norm_num, rfl⟩
  · refine ⟨keptLength a b, longerLength a b, Nat.pos_of_ne_zero empty, Nat.sub_le _ _, ?_, rfl⟩
    rw [keptLength, Nat.cast_sub (editDistance_le_longerLength a b)]

example : similarity "Buton" "Button" = Binary64.ofFraction false 5 6 := by decide +kernel

theorem similarity_bounds (a b : Text) : 0 ≤ (similarity a b).rank ∧ (similarity a b).rank ≤ oneCode := by
  obtain ⟨num, den, below, atMost, -, rounded⟩ := similarity_rounds a b
  rw [rounded]
  exact Binary64.rank_ofFraction_le_one below atMost

/-- Texts that are more alike are not less similar. -/
theorem similarity_mono {a b c d : Text} (order : likeness a b ≤ likeness c d) :
    (similarity a b).rank ≤ (similarity c d).rank := by
  obtain ⟨num, den, below, -, exact, rounded⟩ := similarity_rounds a b
  obtain ⟨num', den', below', -, exact', rounded'⟩ := similarity_rounds c d
  rw [exact, exact'] at order
  rw [rounded, rounded']
  exact Binary64.rank_ofFraction_mono below below' order

/-- A similarity serves as a confidence. -/
theorem ofBinary64?_similarity (a b : Text) :
    ∃ confidence, Confidence.ofBinary64? (similarity a b) = some confidence ∧ confidence.value = similarity a b :=
  ⟨⟨_, (similarity_bounds a b).1, (similarity_bounds a b).2⟩, dif_pos (similarity_bounds a b), rfl⟩

end Mender
