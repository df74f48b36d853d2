import Mender.Proofs.Session.Course

namespace Mender

variable {ω : Type} {s : Session ω} {m later : Memo}

namespace Session

/-- An outcome of a session, by the verdicts of a memo. -/
inductive Delivers (s : Session ω) (m : Memo) : Outcome → Prop
  | failed {c : Course} {f : Failure} : s.Concludes m c (.failed f) →
      Delivers s m (s.outcome c none f.reason Confidence.zero (some (f.message s.manual)))
  | unjudged {c : Course} {reason : StopReason} {e : OracleError} :
      s.Concludes m c (.stopped reason) →
      Delivers s m (s.outcome c none .oracleFailure Confidence.zero (some (e.message s.manual)))
  | finished {c : Course} {reason : StopReason} {final : List Defect} :
      s.Concludes m c (.stopped reason) → s.Knows m c.current final →
      Delivers s m
        (s.outcome c (some final) reason (finishedConfidence final.isEmpty c.steps) none)

namespace Concludes

variable {c : Course} {ending : Ending}

theorem mono (concludes : s.Concludes m c ending) (grows : Memo.Grows s.oracle m later) :
    s.Concludes later c ending := by
  cases concludes with
  | spent underway used => exact .spent (underway.mono grows) used
  | ended underway room sound stops => exact .ended (underway.mono grows) room (sound.mono grows) stops

theorem descent (concludes : s.Concludes m c ending) :
    Descent m s.text (appliedFixes c.steps) c.current := by
  cases concludes with
  | spent underway => exact underway.descent
  | ended underway _ sound => exact Course.descent_after underway.descent sound

theorem recorded (concludes : s.Concludes m c ending) : ∀ step ∈ c.steps, step.Recorded := by
  cases concludes with
  | spent underway => exact underway.recorded
  | ended underway => exact Course.recorded_after underway.recorded

end Concludes

/-- Every outcome delivers what its ending promises, and the memo only grows on the way. -/
theorem Ran.delivers {b b' : Bench ω} {o : Outcome} (ran : s.Ran b o b') :
    Memo.Grows s.oracle b.memo b'.memo ∧ s.Delivers b'.memo o := by
  have start := Course.underway_start s b.memo
  cases ran with
  | failed iterating same =>
    rw [same]
    exact ⟨iterating.grows, .failed (iterating.concludes start (Nat.zero_add _))⟩
  | unjudged iterating judging same =>
    have last := verdict_grows judging
    have concludes := iterating.concludes start (Nat.zero_add _)
    rw [same]
    exact ⟨iterating.grows.trans last, .unjudged (concludes.mono last)⟩
  | finished iterating judging same =>
    have last := verdict_grows judging
    have concludes := iterating.concludes start (Nat.zero_add _)
    rw [same]
    exact ⟨iterating.grows.trans last, .finished (concludes.mono last) (knows_of_verdict judging)⟩

end Session

end Mender
