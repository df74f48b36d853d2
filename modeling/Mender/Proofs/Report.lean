import Mender.Proofs.Analysis
import Mender.Proofs.Session.Consistency
import Mender.Proofs.Session.Decline
import Mender.Proofs.Session.FirstFix
import Mender.Report

namespace Mender

/-- A report tells of an outcome by the verdicts of a memo: it has the analyses of the given text and of the healed one,
and they differ by as many defects, at least, as there are fixes. -/
structure Report.Tells (m : Memo) (o : Outcome) (name : Text) (t : Tuning) (r : Report) : Prop where
  outcome : r.outcome = o
  initial : ∃ first, m.find? o.given = some first ∧
    Analysis.ofDefectsLoosely (if o.steps = [] then first else Defect.prioritize first) t.repeatedThreshold
      t.manyErrorsThreshold = .ok r.initial
  final : ∃ last, m.find? o.healed = some last ∧
    Analysis.ofDefectsLoosely last t.repeatedThreshold t.manyErrorsThreshold = .ok r.final
  diff : r.diff = Diff.unified o.given o.healed name
  declined : o.totalFixes ≤ (r.initial.total : Int) - r.final.total

theorem Report.ofOutcome_eq {o : Outcome} {t : Tuning} {initial final : Analysis} (name : Text)
    (start : Analysis.ofDefectsLoosely o.initialDefects t.repeatedThreshold t.manyErrorsThreshold = .ok initial)
    (finish : Analysis.ofDefectsLoosely o.finalDefects t.repeatedThreshold t.manyErrorsThreshold = .ok final) :
    ofOutcome o name t = .ok ⟨o, initial, final, Diff.unified o.given o.healed name⟩ := by
  simp only [ofOutcome, start, finish]
  rfl

section Outcome

variable {m : Memo} {o : Outcome} {last : List Defect}

/-- What an outcome keeps of the defects at its start is the verdict on the given text. -/
theorem Outcome.initialDefects_eq (leads : StepsLead m o.given o.steps o.healed) (judged : o.final = some last)
    (known : m.find? o.healed = some last) :
    ∃ first, m.find? o.given = some first ∧
      o.initialDefects = if o.steps = [] then first else Defect.prioritize first := by
  rw [initialDefects, finalDefects, judged]
  generalize o.given = t, o.healed = u, o.steps = steps at leads known
  cases leads with
  | stay => exact ⟨last, known, rfl⟩
  | step iteration found => exact ⟨_, found, rfl⟩

theorem Outcome.exists_report (leads : StepsLead m o.given o.steps o.healed) (replays : o.Replays m)
    (judged : o.final = some last) (known : m.find? o.healed = some last) (name : Text) {t : Tuning}
    {least most : Amount} (repeated : Loose.amount t.repeatedThreshold = .fit least)
    (many : Loose.amount t.manyErrorsThreshold = .fit most) :
    ∃ r, Report.ofOutcome o name t = .ok r ∧ r.Tells m o name t := by
  obtain ⟨first, found, start⟩ := o.initialDefects_eq leads judged known
  have finish : o.finalDefects = last := by rw [Outcome.finalDefects, judged, Option.getD_some]
  have analysis (defects : List Defect) := Analysis.ofDefectsLoosely_eq defects repeated many
  refine ⟨_, Report.ofOutcome_eq name (analysis o.initialDefects) (analysis o.finalDefects), ?_⟩
  rw [start, finish]
  refine ⟨rfl, ⟨first, found, analysis _⟩, ⟨last, known, analysis _⟩, rfl, ?_⟩
  · have fewer := replays.descent.count_add_le
    have size : (if o.steps = [] then first else Defect.prioritize first).length = first.length := by
      split_ifs
      · rfl
      · exact Defect.length_prioritize first
    rw [Memo.count_eq known, Memo.count_eq found] at fewer
    simp only [Analysis.ofDefects, replays.total, size]
    omega

end Outcome

namespace Session

variable {ω : Type}

/-- What a session hands back can be reported, unless it failed. -/
structure Reportable (s : Session ω) (b : Bench ω) (result : Outcome × Bench ω) : Prop where
  grows : Memo.Grows s.oracle b.memo result.2.memo
  given : result.1.given = s.text
  final_iff : result.1.final ≠ none ↔ result.1.stopReason ≠ .oracleFailure ∧ result.1.stopReason ≠ .error
  tells : result.1.final ≠ none → ∀ (name : Text) (t : Tuning) (least most : Amount),
    Loose.amount t.repeatedThreshold = .fit least → Loose.amount t.manyErrorsThreshold = .fit most →
      ∃ r, Report.ofOutcome result.1 name t = .ok r ∧ r.Tells result.2.memo result.1 name t

theorem run_reportable (s : Session ω) (b : Bench ω) : s.Reportable b (s.run b) := by
  obtain ⟨grows, given, replays⟩ := s.run_replays b
  have consistent := s.run_consistent b
  refine ⟨grows, given, ?_, fun finished name t least most repeated many => ?_⟩
  · rw [ne_eq, ← consistent.error_iff_final, consistent.error_iff_reason, not_or]
  · obtain ⟨last, judged, known⟩ | ⟨none, -⟩ := (s.run_ran b).final_known
    · have leads := (s.run_ran b).leads
      rw [← given] at leads
      exact Outcome.exists_report leads replays judged known name repeated many
    · exact absurd none finished

/-- Whatever the oracle and the generators do, and for any number of iterations, the report on a session that did not
fail tells of the verdicts on the text it was given and on the text it hands back. -/
theorem report_tells (s : Session ω) (b : Bench ω) :
    s.Reportable b (s.run b) ∧ ∀ budget : Json, s.Reportable b (s.runLoosely budget b) := by
  refine ⟨s.run_reportable b, fun budget => ?_⟩
  rcases s.runLoosely_cases budget b with ⟨n, text, run⟩ | ⟨f, outcome, same⟩
  · rw [run]
    obtain ⟨grows, given, final_iff, tells⟩ := run_reportable { s with budgetText := text, maxIterations := n } b
    exact ⟨grows, given, final_iff, tells⟩
  · exact ⟨.of_eq same, by rw [outcome]; rfl, by simp [outcome, Session.outcome, Failure.reason],
      fun finished => absurd (congrArg Outcome.final outcome) finished⟩

/-- The session on "x" takes two stairs in two steps, and the report on it tells of two defects less. -/
theorem staircase_report_tells :
    let ended := (staircase "x").run (Bench.fresh 0)
    ended.1.final = some [] ∧ ended.1.totalFixes = 2 ∧ ended.1.steps.length = 2 ∧
      ∃ r, Report.ofOutcome ended.1 "x" Tuning.standard = .ok r ∧ r.Tells ended.2.memo ended.1 "x" Tuning.standard := by
  intro ended
  obtain ⟨-, final, -, fixes, steps⟩ := staircase_ends
  have finished : ended.1.final ≠ none := by
    rw [final]
    nofun
  exact ⟨final, fixes, steps,
    (report_tells (staircase "x") (Bench.fresh 0)).1.tells finished "x" Tuning.standard _ _ rfl rfl⟩

end Session

end Mender
