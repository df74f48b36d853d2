import Mender.Proofs.Session.Delivery

namespace Mender

variable {ω : Type} {s : Session ω} {m : Memo}

/-- A stop of a session, by the verdicts of a memo. -/
inductive Session.Stops (s : Session ω) (m : Memo) : Course → StopReason → Prop
  | spent {c : Course} : c.Underway s m → c.iterations = s.maxIterations.toNat →
      Stops s m c .maxIterations
  | cancelled {c : Course} : c.Underway s m → c.iterations < s.maxIterations.toNat →
      Stops s m c .cancelled
  | clean : 0 < s.maxIterations.toNat → s.Knows m s.text [] → Stops s m ⟨s.text, 1, []⟩ .converged
  | helpless {c : Course} {reported found : List Defect} : c.Underway s m →
      c.iterations < s.maxIterations.toNat → s.Knows m c.current found → found ≠ [] →
      Stops s m ⟨c.current, c.iterations + 1, c.steps ++ [.record (c.iterations + 1) reported []]⟩
        .noProgress
  | healed {c : Course} {t : Text} {reported : List Defect} {applied : List Fix} : c.Underway s m →
      c.iterations < s.maxIterations.toNat → applied ≠ [] → s.Knows m t [] →
      Stops s m ⟨t, c.iterations + 1, c.steps ++ [.record (c.iterations + 1) reported applied]⟩
        .converged
  | exhausted {c : Course} {t : Text} {reported found : List Defect} {applied : List Fix} :
      c.Underway s m → c.iterations + 1 = s.maxIterations.toNat → applied ≠ [] →
      s.Knows m t found → found ≠ [] →
      Stops s m ⟨t, c.iterations + 1, c.steps ++ [.record (c.iterations + 1) reported applied]⟩
        .maxIterations

/-- A clean verdict can only be met in the first iteration, for later ones start on a text that is
known to have defects. -/
theorem Course.Underway.of_clean {c : Course} (underway : c.Underway s m)
    (clean : s.Knows m c.current []) : c = ⟨s.text, 0, []⟩ := by
  have unstarted : c.iterations = 0 := by
    refine Decidable.byContradiction fun started => ?_
    obtain ⟨found, knows, some⟩ := underway.unclean started
    exact some (knows.found_eq clean)
  have counted := underway.counted
  have descent := underway.descent
  obtain ⟨current, iterations, steps⟩ := c
  simp only at unstarted counted descent
  subst unstarted
  cases List.length_eq_zero_iff.mp counted
  cases descent
  rfl

theorem Session.Concludes.stops {c : Course} {reason : StopReason}
    (concludes : s.Concludes m c (.stopped reason)) : s.Stops m c reason := by
  cases concludes with
  | spent underway used => exact .spent underway used
  | @ended c r _ underway room sound stops =>
    cases r with
    | cancelled =>
      cases stops
      have unchanged : c.after .cancelled = c := by simp [Course.after, Round.step?]
      rw [unchanged]
      exact .cancelled underway room
    | unjudged e => cases stops
    | clean =>
      cases stops
      cases underway.of_clean sound
      exact .clean room sound
    | worked reported pass =>
      obtain ⟨found, knows, some, ordered, descent, rest, known, remaining⟩ := sound
      obtain ⟨current, left, applied, ending⟩ := pass
      cases ending with
      | failed f => cases stops
      | finished =>
        simp only [Round.ending?, Course.after, Round.step?, Option.toList_some, stopReason?_record]
          at stops
        simp only at descent known remaining
        subst remaining
        have knows' : s.Knows m current rest := ⟨knows.keepable, known⟩
        by_cases none : applied = []
        · rw [if_pos none] at stops
          cases stops
          subst none
          cases descent
          exact .helpless underway room knows some
        rw [if_neg none] at stops
        by_cases clean : rest = []
        · rw [if_pos (Defect.prioritize_eq_nil_iff.mpr clean)] at stops
          cases stops
          subst clean
          exact .healed underway room none knows'
        rw [if_neg (mt Defect.prioritize_eq_nil_iff.mp clean)] at stops
        by_cases used : s.maxIterations ≤ (c.iterations + 1 : Nat)
        · rw [if_pos used] at stops
          cases stops
          exact .exhausted underway (by omega) none knows' clean
        · rw [if_neg used] at stops
          cases stops

end Mender
