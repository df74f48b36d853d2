import Mender.Proofs.Session.History

namespace Mender

def appliedFixes (steps : List HealingStep) : List Fix := steps.flatMap HealingStep.appliedFixes

/-- The step was written by a session. -/
def HealingStep.Recorded (step : HealingStep) : Prop :=
  ∃ iteration defects applied, step = .record iteration defects applied

theorem HealingStep.Recorded.fixesApplied_eq {step : HealingStep} (recorded : step.Recorded) :
    step.fixesApplied = step.appliedFixes.length := by
  obtain ⟨iteration, defects, applied, rfl⟩ := recorded
  rfl

/-- The steps are numbered from one. -/
def Numbered (steps : List HealingStep) : Prop :=
  steps.map HealingStep.iteration = (List.range steps.length).map fun i : Nat => (i : Int) + 1

/-- Steps are numbered one by one, so the next one has the next number. -/
theorem Numbered.record {steps : List HealingStep} (numbered : Numbered steps)
    (reported : List Defect) (applied : List Fix) :
    Numbered (steps ++ [.record (steps.length + 1) reported applied]) := by
  unfold Numbered at numbered ⊢
  rw [List.map_append, numbered, List.length_append, List.length_singleton, List.range_succ,
    List.map_append]
  rfl

theorem total_fixesApplied {steps : List HealingStep}
    (recorded : ∀ step ∈ steps, step.Recorded) :
    Session.total HealingStep.fixesApplied steps = (appliedFixes steps).length := by
  induction steps with
  | nil => rfl
  | cons step steps ih =>
    have first := (recorded step List.mem_cons_self).fixesApplied_eq
    have rest := ih fun other member => recorded other (List.mem_cons_of_mem _ member)
    simp only [Session.total, first, rest, appliedFixes, List.flatMap_cons, List.length_append,
      Int.natCast_add]

namespace Round

def accepted : Round → List Fix
  | cancelled | unjudged _ | clean => []
  | worked _ pass => pass.applied

/-- All of a step is told by its number, what was reported and what was applied. -/
theorem eq_record_of_step? {r : Round} {iteration : Nat} {step : HealingStep}
    (written : r.step? iteration = some step) :
    ∃ reported applied, step = .record iteration reported applied := by
  cases r with
  | cancelled | unjudged | clean => cases written
  | worked reported pass =>
    obtain ⟨current, remaining, applied, ending⟩ := pass
    cases ending with
    | finished =>
      cases written
      exact ⟨_, _, rfl⟩
    | failed f =>
      cases applied <;> cases written
      exact ⟨_, _, rfl⟩

/-- An iteration that is not recorded has accepted nothing. -/
theorem appliedFixes_step? (r : Round) (iteration : Nat) :
    appliedFixes (r.step? iteration).toList = r.accepted := by
  cases r with
  | cancelled | unjudged | clean => rfl
  | worked reported pass =>
    obtain ⟨current, remaining, applied, ending⟩ := pass
    cases ending <;> cases applied <;> simp [step?, accepted, appliedFixes, HealingStep.record]

end Round

variable {ω : Type} {s : Session ω} {m later : Memo}

/-- A course between two iterations, by the verdicts of a memo. -/
structure Course.Underway (s : Session ω) (m : Memo) (c : Course) : Prop where
  descent : Descent m s.text (appliedFixes c.steps) c.current
  counted : c.steps.length = c.iterations
  numbered : Numbered c.steps
  recorded : ∀ step ∈ c.steps, step.Recorded
  progress : ∀ step ∈ c.steps, step.appliedFixes ≠ []
  unclean : c.iterations ≠ 0 → ∃ found, s.Knows m c.current found ∧ found ≠ []

/-- How the iterations of a session end: they are used up, or one brings an ending. -/
inductive Session.Concludes (s : Session ω) (m : Memo) : Course → Ending → Prop
  | spent {c : Course} : c.Underway s m → c.iterations = s.maxIterations.toNat →
      Concludes s m c (.stopped .maxIterations)
  | ended {c : Course} {r : Round} {ending : Ending} : c.Underway s m →
      c.iterations < s.maxIterations.toNat → r.Sound s m c.current →
      r.ending? s.maxIterations (c.after r).steps = some ending →
      Concludes s m (c.after r) ending

namespace Course

variable {c : Course}

theorem underway_start (s : Session ω) (m : Memo) : Underway s m ⟨s.text, 0, []⟩ where
  descent := .stay
  counted := rfl
  numbered := rfl
  recorded := by simp
  progress := by simp
  unclean := by simp

theorem Underway.mono (underway : c.Underway s m) (grows : Memo.Grows s.oracle m later) :
    c.Underway s later where
  descent := underway.descent.mono grows
  counted := underway.counted
  numbered := underway.numbered
  recorded := underway.recorded
  progress := underway.progress
  unclean := by
    intro started
    obtain ⟨found, knows, some⟩ := underway.unclean started
    exact ⟨found, knows.mono grows, some⟩

theorem steps_after (c : Course) (r : Round) :
    (c.after r).steps = c.steps ++ (r.step? (c.iterations + 1)).toList := rfl

theorem appliedFixes_after (c : Course) (r : Round) :
    appliedFixes (c.after r).steps = appliedFixes c.steps ++ r.accepted := by
  rw [← r.appliedFixes_step? (c.iterations + 1)]
  exact List.flatMap_append

theorem recorded_after {r : Round} (recorded : ∀ step ∈ c.steps, step.Recorded) :
    ∀ step ∈ (c.after r).steps, step.Recorded := by
  intro step member
  rcases List.mem_append.mp member with old | new
  · exact recorded step old
  · exact ⟨_, Round.eq_record_of_step? (Option.mem_toList.mp new)⟩

/-- A round goes on from where the course stands, down by the fixes it accepts. -/
theorem descent_after {r : Round} (descent : Descent m s.text (appliedFixes c.steps) c.current)
    (sound : r.Sound s m c.current) :
    Descent m s.text (appliedFixes (c.after r).steps) (c.after r).current := by
  have fixes : appliedFixes (c.after r).steps = appliedFixes c.steps ++ r.accepted := by
    rw [← r.appliedFixes_step? (c.iterations + 1)]
    exact List.flatMap_append
  rw [fixes]
  cases r with
  | cancelled | unjudged | clean => exact descent.trans .stay
  | worked reported pass =>
    obtain ⟨_, _, _, _, pass_sound⟩ := sound
    exact descent.trans pass_sound.descent

/-- What an iteration brings that did not fail: nothing helped, the text is clean, the iterations are used up,
or the session goes on. -/
theorem ending?_finished (c : Course) (reported : List Defect) {pass : Pass} (finished : pass.ending = .finished)
    (maxIterations : Int) :
    (Round.worked reported pass).ending? maxIterations (c.after (.worked reported pass)).steps =
      if pass.applied = [] then some (.stopped .noProgress)
      else if pass.remaining = [] then some (.stopped .converged)
      else if maxIterations ≤ (c.iterations + 1 : Nat) then some (.stopped .maxIterations)
      else none := by
  simp only [Round.ending?, after, Round.step?, finished, Option.toList_some, stopReason?_record]
  by_cases idle : pass.applied = []
  · rw [if_pos idle, if_pos idle, Option.map_some]
  by_cases clean : pass.remaining = []
  · rw [if_neg idle, if_neg idle, if_pos clean, if_pos clean, Option.map_some]
  rw [if_neg idle, if_neg idle, if_neg clean, if_neg clean]
  split <;> rfl

/-- A session goes on only after an iteration that did its work, accepted a fix and left a defect. -/
theorem ending?_eq_none {r : Round} {maxIterations : Int}
    (goes : r.ending? maxIterations (c.after r).steps = none) :
    ∃ reported pass, r = .worked reported pass ∧ pass.ending = .finished ∧ pass.applied ≠ [] ∧
      pass.remaining ≠ [] := by
  cases r with
  | cancelled | unjudged | clean => cases goes
  | worked reported pass =>
    obtain ⟨current, remaining, applied, ending⟩ := pass
    cases ending with
    | failed f => cases goes
    | finished =>
      simp only [Round.ending?, after, Round.step?, Option.toList_some, stopReason?_record,
        Option.map_eq_none_iff] at goes
      refine ⟨reported, _, rfl, rfl, ?_, ?_⟩
      · intro none
        rw [if_pos none] at goes
        cases goes
      · intro clean
        rw [if_pos clean] at goes
        split at goes <;> cases goes

/-- What holds of a course underway holds after one more round that does not stop. -/
theorem Underway.next {r : Round} (underway : c.Underway s m) (sound : r.Sound s m c.current)
    (goes : r.ending? s.maxIterations (c.after r).steps = none) :
    (c.after r).Underway s m ∧ (c.after r).iterations = c.iterations + 1 := by
  have descent := descent_after underway.descent sound
  obtain ⟨reported, pass, rfl, finished, some, unclean⟩ := ending?_eq_none goes
  have steps : (c.after (.worked reported pass)).steps =
      c.steps ++ [.record (c.steps.length + 1) reported pass.applied] := by
    simp [after, Round.step?, finished, underway.counted]
  refine ⟨⟨descent, ?_, ?_, recorded_after underway.recorded, ?_, ?_⟩, rfl⟩
  · rw [steps, List.length_append, underway.counted]
    rfl
  · rw [steps]
    exact underway.numbered.record reported pass.applied
  · intro step member
    rw [steps] at member
    rcases List.mem_append.mp member with old | new
    · exact underway.progress step old
    · rw [List.mem_singleton.mp new]
      exact some
  · intro _
    obtain ⟨_, knows, _, _, pass_sound⟩ := sound
    obtain ⟨rest, known, remaining⟩ := pass_sound.judged
    refine ⟨rest, ⟨knows.keepable, known⟩, ?_⟩
    intro none
    exact unclean (remaining.trans (Defect.prioritize_eq_nil_iff.mpr none))

end Course

/-- Later iterations add to the fixes and take none back. -/
theorem Session.Iterating.appliedFixes_prefix {left : Nat} {c last : Course} {rounds : List Round}
    {ending : Ending} {b b' : Bench ω} (iterating : s.Iterating left c b rounds last ending b') :
    appliedFixes c.steps <+: appliedFixes last.steps := by
  induction iterating with
  | spent => exact List.prefix_refl _
  | @ended _ c _ r =>
    rw [c.appliedFixes_after r]
    exact List.prefix_append _ _
  | @next _ c _ r _ _ _ _ _ _ _ _ ih =>
    rw [c.appliedFixes_after r] at ih
    exact (List.prefix_append _ _).trans ih

theorem Session.Iterating.concludes {left : Nat} {c last : Course} {rounds : List Round}
    {ending : Ending} {b b' : Bench ω} (iterating : s.Iterating left c b rounds last ending b')
    (underway : c.Underway s b.memo) (budget : c.iterations + left = s.maxIterations.toNat) :
    s.Concludes b'.memo last ending := by
  induction iterating with
  | spent => exact .spent underway budget
  | ended iterated stops same =>
    rw [same]
    exact .ended (underway.mono iterated.grows) (by omega) iterated.sound stops
  | next iterated goes _ ih =>
    obtain ⟨underway', counted⟩ := (underway.mono iterated.grows).next iterated.sound goes
    exact ih underway' (by omega)

end Mender
