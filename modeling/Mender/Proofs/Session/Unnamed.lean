import Mender.Proofs.Session.Choice
import Mender.Proofs.Session.Round

namespace Mender

def Pass.unnamed (p : Pass) : Pass := { p with applied := p.applied.map Fix.unnamed }

def Round.unnamed : Round → Round
  | worked reported pass => worked reported pass.unnamed
  | cancelled => cancelled
  | unjudged e => unjudged e
  | clean => clean

def HealingStep.unnamed (step : HealingStep) : HealingStep :=
  { step with appliedFixes := step.appliedFixes.map Fix.unnamed }

def Course.unnamed (c : Course) : Course := { c with steps := c.steps.map HealingStep.unnamed }

/-- The outcome but for the name of the session, the time that it took, and the names of fixes. -/
def Outcome.anonymous (o : Outcome) : Outcome :=
  { o with session := [], duration := Binary64.ofCode false 0, steps := o.steps.map HealingStep.unnamed }

theorem HealingStep.unnamed_record (iteration : Nat) (defects : List Defect) (applied : List Fix) :
    (record iteration defects applied).unnamed = record iteration defects (applied.map Fix.unnamed) := by
  simp [unnamed, record]

namespace Round

theorem step?_unnamed (r : Round) (iteration : Nat) :
    r.unnamed.step? iteration = (r.step? iteration).map HealingStep.unnamed := by
  cases r with
  | cancelled | unjudged | clean => rfl
  | worked reported pass =>
    obtain ⟨current, remaining, applied, ending⟩ := pass
    cases ending <;> cases applied <;> simp [step?, unnamed, Pass.unnamed, HealingStep.unnamed_record]

theorem stopReason?_unnamed (steps : List HealingStep) (maxIterations remaining : Int) :
    stopReason? (steps.map HealingStep.unnamed) maxIterations remaining =
      stopReason? steps maxIterations remaining := by
  unfold stopReason?
  rw [List.getLast?_map]
  cases steps.getLast? <;> rfl

/-- Whether a round ends the session has nothing to do with the names of fixes. -/
theorem ending?_unnamed (r : Round) (maxIterations : Int) (steps : List HealingStep) :
    r.unnamed.ending? maxIterations (steps.map HealingStep.unnamed) = r.ending? maxIterations steps := by
  cases r with
  | cancelled | unjudged | clean => rfl
  | worked reported pass =>
    obtain ⟨current, remaining, applied, ending⟩ := pass
    cases ending with
    | failed f => rfl
    | finished => simp only [ending?, unnamed, Pass.unnamed, stopReason?_unnamed]

end Round

/-- Two courses are alike but for names when their texts, counts and steps are. -/
theorem Course.unnamed_eq_iff {c c' : Course} : c.unnamed = c'.unnamed ↔ c.current = c'.current ∧
    c.iterations = c'.iterations ∧
    c.steps.map HealingStep.unnamed = c'.steps.map HealingStep.unnamed := by
  unfold unnamed
  rw [Course.mk.injEq]

theorem Course.unnamed_after (c : Course) (r : Round) : (c.after r).unnamed = c.unnamed.after r.unnamed := by
  have steps : (c.after r).unnamed.steps = (c.unnamed.after r.unnamed).steps := by
    simp only [after, unnamed, List.map_append, Round.step?_unnamed]
    cases r.step? (c.iterations + 1) <;> rfl
  have current : (c.after r).unnamed.current = (c.unnamed.after r.unnamed).current := by cases r <;> rfl
  have iterations : (c.after r).unnamed.iterations = (c.unnamed.after r.unnamed).iterations := by
    cases r <;> rfl
  exact (Course.mk.injEq ..).mpr ⟨current, iterations, steps⟩

namespace Session

variable {ω : Type} {s : Session ω}

theorem total_unnamed {count : HealingStep → Int} (kept : ∀ step, count step.unnamed = count step)
    (steps : List HealingStep) : total count (steps.map HealingStep.unnamed) = total count steps := by
  induction steps with
  | nil => rfl
  | cons step steps ih => rw [List.map_cons, total, total, kept, ih]

end Session

end Mender
