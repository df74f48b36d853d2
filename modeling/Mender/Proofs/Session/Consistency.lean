import Mender.Proofs.Session.Stop

namespace Mender

/-- An outcome that makes sense for a number of iterations, which may be zero or less. -/
structure Outcome.Consistent (budget : Int) (o : Outcome) : Prop where
  success_iff : o.success = true ↔ o.final = some []
  error_iff_final : o.error ≠ none ↔ o.final = none
  error_iff_reason : o.error ≠ none ↔ o.stopReason = .oracleFailure ∨ o.stopReason = .error
  converged : o.stopReason = .converged → o.success = true
  noProgress : o.stopReason = .noProgress →
    o.success = false ∧ ∃ step, o.steps.getLast? = some step ∧ step.fixesApplied = 0
  maxIterations : o.stopReason = .maxIterations →
    o.iterations = max 0 budget ∧ (1 ≤ budget → o.success = false)
  cancelled : o.stopReason = .cancelled → 1 ≤ o.iterations → o.success = false
  success_converged : o.success = true → 1 ≤ o.iterations → o.stopReason = .converged
  iterations_le : o.iterations ≤ max 0 budget
  numbered : Numbered o.steps
  progress : ∀ step ∈ o.steps.dropLast, 1 ≤ step.fixesApplied
  length_steps : o.error = none → (o.steps.length : Int) = o.iterations ∨
    o.final = some [] ∧ o.healed = o.given ∧ o.iterations = 1 ∧ o.steps = []

variable {ω : Type} {s : Session ω} {m : Memo}

namespace Session

namespace Concludes

variable {c : Course} {ending : Ending}

theorem iterations_le (concludes : s.Concludes m c ending) :
    c.iterations ≤ s.maxIterations.toNat := by
  cases concludes with
  | spent _ used => exact Nat.le_of_eq used
  | @ended c r _ _ room =>
    have counts : (c.after r).iterations ≤ c.iterations + 1 := by cases r <;> simp [Course.after]
    omega

theorem numbered (concludes : s.Concludes m c ending) : Numbered c.steps := by
  cases concludes with
  | spent underway => exact underway.numbered
  | @ended c r _ underway =>
    rw [Course.steps_after]
    cases written : r.step? (c.iterations + 1) with
    | none => simpa using underway.numbered
    | some step =>
      obtain ⟨reported, applied, rfl⟩ := Round.eq_record_of_step? written
      rw [← underway.counted]
      exact underway.numbered.record reported applied

theorem progress (concludes : s.Concludes m c ending) :
    ∀ step ∈ c.steps.dropLast, 1 ≤ step.fixesApplied := by
  have early : ∀ step ∈ c.steps.dropLast, step.appliedFixes ≠ [] := by
    cases concludes with
    | spent underway => exact fun step member => underway.progress step (List.dropLast_subset _ member)
    | @ended c r _ underway =>
      rw [Course.steps_after]
      cases r.step? (c.iterations + 1) with
      | none =>
        intro step member
        rw [Option.toList_none, List.append_nil] at member
        exact underway.progress step (List.dropLast_subset _ member)
      | some last =>
        rw [Option.toList_some, List.dropLast_concat]
        exact underway.progress
  intro step member
  have some := List.length_pos_iff.mpr (early step member)
  have counted := (concludes.recorded step (List.dropLast_subset _ member)).fixesApplied_eq
  omega

end Concludes

/-- A session that could not finish says so everywhere. -/
theorem Concludes.consistent_of_failure {c : Course} {ending : Ending} {reason : StopReason}
    {confidence : Confidence} {error : Text} (concludes : s.Concludes m c ending)
    (failure : reason = .oracleFailure ∨ reason = .error) :
    (s.outcome c none reason confidence (some error)).Consistent s.maxIterations where
  success_iff := by simp [outcome]
  error_iff_final := by simp [outcome]
  error_iff_reason := by simpa [outcome] using failure
  converged := by rcases failure with rfl | rfl <;> simp [outcome]
  noProgress := by rcases failure with rfl | rfl <;> simp [outcome]
  maxIterations := by rcases failure with rfl | rfl <;> simp [outcome]
  cancelled := by simp [outcome]
  success_converged := by simp [outcome]
  iterations_le := by
    have bound := concludes.iterations_le
    simp only [outcome]
    omega
  numbered := concludes.numbered
  progress := concludes.progress
  length_steps := by simp [outcome]

namespace Stops

variable {c : Course} {reason : StopReason} {final : List Defect}

/-- Once an iteration has begun, converging is the same as ending on a clean text. -/
theorem clean_iff (stops : s.Stops m c reason) (knows : s.Knows m c.current final)
    (started : c.iterations ≠ 0) : final = [] ↔ reason = .converged := by
  cases stops with
  | spent underway | cancelled underway =>
    obtain ⟨found, known, some⟩ := underway.unclean started
    cases knows.found_eq known
    simp [some]
  | clean _ known | healed _ _ _ known => simp [knows.found_eq known]
  | helpless _ _ known some | exhausted _ _ _ known some =>
    cases knows.found_eq known
    simp [some]

theorem started_of_converged (stops : s.Stops m c .converged) : c.iterations ≠ 0 := by
  cases stops with
  | clean | healed => exact Nat.succ_ne_zero _

theorem last_of_noProgress (stops : s.Stops m c .noProgress) :
    c.iterations ≠ 0 ∧ ∃ step, c.steps.getLast? = some step ∧ step.fixesApplied = 0 := by
  cases stops with
  | helpless => exact ⟨Nat.succ_ne_zero _, _, List.getLast?_concat, rfl⟩

theorem spent_of_maxIterations (stops : s.Stops m c .maxIterations) :
    c.iterations = s.maxIterations.toNat := by
  cases stops with
  | spent _ used => exact used
  | exhausted _ used => exact used

theorem not_failed (stops : s.Stops m c reason) : reason ≠ .oracleFailure ∧ reason ≠ .error := by
  cases stops <;> exact ⟨nofun, nofun⟩

/-- Every iteration that counts has a step, but for the one that finds the given text clean. -/
theorem length_steps (stops : s.Stops m c reason) : c.steps.length = c.iterations ∨
    reason = .converged ∧ c = ⟨s.text, 1, []⟩ := by
  cases stops with
  | spent underway | cancelled underway => exact Or.inl underway.counted
  | clean => exact Or.inr ⟨rfl, rfl⟩
  | helpless underway | healed underway | exhausted underway =>
    exact Or.inl (by rw [List.length_append, underway.counted, List.length_singleton])

end Stops

theorem Stops.consistent {c : Course} {reason : StopReason} {final : List Defect}
    {confidence : Confidence} (stops : s.Stops m c reason) (knows : s.Knows m c.current final)
    (concludes : s.Concludes m c (.stopped reason)) :
    (s.outcome c (some final) reason confidence none).Consistent s.maxIterations where
  success_iff := by simp [outcome]
  error_iff_final := by simp [outcome]
  error_iff_reason := by simpa [outcome] using stops.not_failed
  converged := by
    rintro rfl
    have clean := (stops.clean_iff knows stops.started_of_converged).mpr rfl
    simpa [outcome] using clean
  noProgress := by
    rintro rfl
    obtain ⟨started, last⟩ := stops.last_of_noProgress
    have unclean := mt (stops.clean_iff knows started).mp nofun
    exact ⟨by simpa [outcome] using unclean, last⟩
  maxIterations := by
    rintro rfl
    have used := stops.spent_of_maxIterations
    refine ⟨by simp only [outcome]; omega, fun positive => ?_⟩
    have unclean := mt (stops.clean_iff knows (by omega)).mp nofun
    simpa [outcome] using unclean
  cancelled := by
    rintro rfl started
    simp only [outcome] at started
    have unclean := mt (stops.clean_iff knows (by omega)).mp nofun
    simpa [outcome] using unclean
  success_converged := by
    intro success started
    simp only [outcome] at started
    exact (stops.clean_iff knows (by omega)).mp (by simpa [outcome] using success)
  iterations_le := by
    have bound := concludes.iterations_le
    simp only [outcome]
    omega
  numbered := concludes.numbered
  progress := concludes.progress
  length_steps := by
    intro _
    rcases stops.length_steps with counted | ⟨rfl, rfl⟩
    · exact Or.inl (congrArg Nat.cast counted)
    · have clean := (stops.clean_iff knows (by simp)).mpr rfl
      exact Or.inr ⟨congrArg some clean, rfl, rfl, rfl⟩

theorem Delivers.consistent {o : Outcome} (delivers : s.Delivers m o) :
    o.Consistent s.maxIterations := by
  cases delivers with
  | @failed c f concludes =>
    exact concludes.consistent_of_failure (by cases f <;> simp [Failure.reason])
  | unjudged concludes => exact concludes.consistent_of_failure (Or.inl rfl)
  | finished concludes knows => exact concludes.stops.consistent knows concludes

theorem run_consistent (s : Session ω) (b : Bench ω) : (s.run b).1.Consistent s.maxIterations :=
  (s.run_ran b).delivers.2.consistent

/-- Whatever the oracle and the generators do, and for any number of iterations, the outcome of a
session makes sense. -/
theorem outcome_consistent (s : Session ω) (b : Bench ω) :
    (s.run b).1.Consistent s.maxIterations ∧
      ∀ n : Int, (s.runLoosely (.int n) b).1.Consistent n := by
  refine ⟨s.run_consistent b, fun n => ?_⟩
  exact run_consistent { s with budgetText := (Json.int n).plain, maxIterations := n } b

end Session

end Mender
