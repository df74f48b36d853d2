import Mender.Proofs.Session.Delivery

namespace Mender

/-- The fixes of an outcome, applied one after the other, lead from the given text to the healed one,
and by the verdicts of the memo every text on the way has fewer defects than the one before. -/
structure Outcome.Replays (m : Memo) (o : Outcome) : Prop where
  descent : Descent m o.given (appliedFixes o.steps) o.healed
  count : (textsAlong o.given (appliedFixes o.steps)).length = (appliedFixes o.steps).length + 1
  last : (textsAlong o.given (appliedFixes o.steps)).getLast? = some o.healed
  distinct : (textsAlong o.given (appliedFixes o.steps)).Nodup
  total : o.totalFixes = (appliedFixes o.steps).length
  unchanged_iff : o.healed = o.given ↔ appliedFixes o.steps = []

theorem Session.outcome_replays {ω : Type} {s : Session ω} {m : Memo} {c : Course}
    {final : Option (List Defect)} {reason : StopReason} {confidence : Confidence}
    {error : Option Text} (descent : Descent m s.text (appliedFixes c.steps) c.current)
    (recorded : ∀ step ∈ c.steps, step.Recorded) :
    (s.outcome c final reason confidence error).Replays m where
  descent := descent
  count := descent.length_textsAlong
  last := descent.getLast?_textsAlong
  distinct := descent.nodup
  total := total_fixesApplied recorded
  unchanged_iff := descent.eq_iff

theorem Session.Delivers.replays {ω : Type} {s : Session ω} {m : Memo} {o : Outcome}
    (delivers : s.Delivers m o) : o.given = s.text ∧ o.Replays m := by
  cases delivers with
  | failed concludes | unjudged concludes | finished concludes =>
    exact ⟨rfl, outcome_replays concludes.descent concludes.recorded⟩

/-- A session that was given its number of iterations loosely either runs with a number or does
nothing at all. -/
theorem Session.runLoosely_cases {ω : Type} (s : Session ω) (budget : Json) (b : Bench ω) :
    (∃ n text, s.runLoosely budget b =
      ({ s with budgetText := text, maxIterations := n } : Session ω).run b) ∨
    ∃ f, (s.runLoosely budget b).1 =
        s.outcome ⟨s.text, 0, []⟩ none (Failure.unexpected f).reason Confidence.zero
          (some ((Failure.unexpected f).message s.manual)) ∧
      (s.runLoosely budget b).2.memo = b.memo := by
  unfold runLoosely
  cases Loose.integer budget with
  | fit n => exact Or.inl ⟨n, _, rfl⟩
  | odd v => exact Or.inr ⟨_, rfl, rfl⟩

theorem Session.run_replays {ω : Type} (s : Session ω) (b : Bench ω) :
    Memo.Grows s.oracle b.memo (s.run b).2.memo ∧ (s.run b).1.given = s.text ∧
      (s.run b).1.Replays (s.run b).2.memo := by
  obtain ⟨grows, delivers⟩ := (s.run_ran b).delivers
  exact ⟨grows, delivers.replays⟩

/-- Whatever a session ends with, its steps replay: the memo at the end holds nothing but what it held
at the start and answers of the oracle, and by it the listed fixes lead down from the given text to
the healed one. -/
theorem Session.steps_replay {ω : Type} (s : Session ω) (b : Bench ω) :
    (Memo.Grows s.oracle b.memo (s.run b).2.memo ∧ (s.run b).1.given = s.text ∧
      (s.run b).1.Replays (s.run b).2.memo) ∧
    ∀ budget : Json, Memo.Grows s.oracle b.memo (s.runLoosely budget b).2.memo ∧
      (s.runLoosely budget b).1.given = s.text ∧
      (s.runLoosely budget b).1.Replays (s.runLoosely budget b).2.memo := by
  refine ⟨s.run_replays b, fun budget => ?_⟩
  rcases s.runLoosely_cases budget b with ⟨n, text, run⟩ | ⟨f, outcome, same⟩
  · rw [run]
    exact run_replays { s with budgetText := text, maxIterations := n } b
  · rw [same, outcome]
    exact ⟨.refl, rfl, outcome_replays .stay (by simp)⟩

end Mender
