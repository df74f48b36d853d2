import Mender.Text.Search

namespace Mender.Text

variable {t needle : Text}

theorem startsWith_iff : t.startsWith needle ↔ needle <+: t := List.isPrefixOf_iff_prefix

theorem find?_of_start (here : needle <+: t) : t.find? needle = some 0 := by
  unfold find?
  exact if_pos (startsWith_iff.mpr here)

theorem find?_nil_of_not (absent : ¬needle <+: []) : find? [] needle = none := by
  rw [find?]
  exact if_neg (mt startsWith_iff.mp absent)

theorem find?_cons_of_not {c : CodePoint} {rest : Text} (absent : ¬needle <+: c :: rest) :
    find? (c :: rest) needle = (find? rest needle).map (· + 1) := by
  rw [find?]
  exact if_neg (mt startsWith_iff.mp absent)

/-- Where the text starts with another one, this is the first place. -/
theorem first_of_start (here : needle <+: t) {i : Nat} :
    0 = i ↔ needle <+: t.drop i ∧ ∀ j < i, ¬needle <+: t.drop j := by
  constructor
  · rintro rfl
    exact ⟨here, fun _ before => absurd before (Nat.not_lt_zero _)⟩
  · rintro ⟨-, first⟩
    rcases Nat.eq_zero_or_pos i with rfl | later
    · rfl
    · exact absurd here (first 0 later)

/-- The place found is the first at which the needle stands. -/
theorem find?_eq_some_iff {i : Nat} :
    t.find? needle = some i ↔ needle <+: t.drop i ∧ ∀ j < i, ¬needle <+: t.drop j := by
  induction t generalizing i with
  | nil =>
    by_cases here : needle <+: []
    · rw [find?_of_start here, Option.some.injEq]
      exact first_of_start here
    · rw [find?_nil_of_not here, List.drop_nil]
      exact iff_of_false nofun fun there => here there.1
  | cons c rest ih =>
    by_cases here : needle <+: c :: rest
    · rw [find?_of_start here, Option.some.injEq]
      exact first_of_start here
    · rw [find?_cons_of_not here, Option.map_eq_some_iff]
      constructor
      · rintro ⟨k, found, rfl⟩
        obtain ⟨there, first⟩ := ih.mp found
        refine ⟨there, fun j before => ?_⟩
        cases j with
        | zero => exact here
        | succ j => exact first j (Nat.lt_of_succ_lt_succ before)
      · rintro ⟨there, first⟩
        cases i with
        | zero => exact absurd there here
        | succ k => exact ⟨k, ih.mpr ⟨there, fun j before => first (j + 1) (Nat.succ_lt_succ before)⟩, rfl⟩

end Mender.Text
