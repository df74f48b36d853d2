import Mathlib.Data.List.Chain
import Mender.Proofs.Session.Determined
import Mender.Proofs.Session.Log
import Mender.Proofs.Session.Replay

namespace Mender

theorem textsAlong_eq_cons (t : Text) (fixes : List Fix) : ∃ later, textsAlong t fixes = t :: later := by
  cases fixes with
  | nil => exact ⟨[], rfl⟩
  | cons f fixes =>
    unfold textsAlong
    cases f.apply t with
    | ok u => exact ⟨_, rfl⟩
    | error e => exact ⟨_, rfl⟩

/-- By the verdict of a memo all defects of a text were reported, wherever they stand. -/
def Foreseen (m : Memo) (reported : List Defect) (t : Text) : Prop :=
  ∃ found, m.find? t = some found ∧ ∀ d ∈ found, d.identity ∈ reported.map Defect.identity

theorem Foreseen.mono {ω : Type} {o : Oracle ω} {m later : Memo} {reported : List Defect} {t : Text}
    (foreseen : Foreseen m reported t) (grows : Memo.Grows o m later) : Foreseen later reported t := by
  obtain ⟨found, known, all⟩ := foreseen
  exact ⟨found, grows.kept known, all⟩

/-- On the way of a step, all texts between the first and the last have only defects that the step
reports. -/
def HealingStep.Foresees (m : Memo) (start : Text) (step : HealingStep) : Prop :=
  ∀ u ∈ (textsAlong start step.appliedFixes).tail.dropLast, Foreseen m step.defects u

/-- Every step starts where those before it lead to, its fixes apply one after the other, and in between it
meets only defects that it reports. -/
def StepsForesee (m : Memo) (given : Text) (steps : List HealingStep) : Prop :=
  ∀ earlier step later, steps = earlier ++ step :: later →
    ∃ start, (textsAlong given (appliedFixes earlier)).getLast? = some start ∧
      (textsAlong start step.appliedFixes).length = step.appliedFixes.length + 1 ∧ step.Foresees m start

/-- A step that accepts a fix reports some defect that the step before it did not report. -/
def StepsSurface (steps : List HealingStep) : Prop :=
  steps.IsChain fun step next =>
    next.appliedFixes ≠ [] → ∃ d ∈ next.defects, d.identity ∉ step.defects.map Defect.identity

variable {ω : Type} {s : Session ω} {answers : Answers} {b b' : Bench ω} {t : Text}

namespace Session

/-- Between its fixes a pass meets only defects that were reported. -/
theorem Accepting.foreseen {reported defects : List Defect} {pass : Pass}
    (accepting : s.Accepting reported t defects b pass b') :
    ∀ u ∈ (textsAlong t pass.applied).tail.dropLast, Foreseen b'.memo reported u := by
  induction accepting with
  | clean | unranked | unjudged | exhausted => simp [textsAlong]
  | fresh search => simp [textsAlong, search.accepted.1]
  | @again t defects b fix healed after fewer b₁ b₂ pass b' search unseen same _ rest ih =>
    obtain ⟨applied, known⟩ := search.accepted
    have foreseen : Foreseen b'.memo reported healed := by
      refine ⟨after, (same ▸ rest.grows).kept known, fun d member => ?_⟩
      have old := mt hasFresh_eq_true_iff.mpr (Bool.eq_false_iff.mp unseen)
      exact Decidable.byContradiction fun new =>
        old ⟨d, List.mem_mergeSort.mpr member, new⟩
    obtain ⟨later, along⟩ := textsAlong_eq_cons healed pass.applied
    intro u member
    simp only [textsAlong, applied, List.tail_cons] at member
    rw [along] at ih member
    -- The text after the first fix lies in between if another fix follows.
    cases later with
    | nil => cases member
    | cons v later =>
      rcases List.mem_cons.mp member with rfl | between
      · exact foreseen
      · exact ih u between

/-- An iteration that accepts fixes meets only defects that it reports before the last of them. -/
theorem Iterated.foreseen {reported : List Defect} {pass : Pass}
    (iterated : s.Iterated t b (.worked reported pass) b') :
    ∀ u ∈ (textsAlong t pass.applied).tail.dropLast, Foreseen b'.memo reported u := by
  cases iterated with
  | worked _ _ _ _ accepting => exact accepting.foreseen

end Session

namespace StepsForesee

variable {m later : Memo} {given start : Text} {steps : List HealingStep}

theorem mono {o : Oracle ω} (foresee : StepsForesee m given steps) (grows : Memo.Grows o m later) :
    StepsForesee later given steps := by
  intro earlier step rest split
  obtain ⟨start, begins, apply, sees⟩ := foresee earlier step rest split
  exact ⟨start, begins, apply, fun u member => (sees u member).mono grows⟩

/-- One step more that begins where the steps before it end. -/
theorem concat (foresee : StepsForesee m given steps) {step : HealingStep}
    (begins : (textsAlong given (appliedFixes steps)).getLast? = some start)
    (apply : (textsAlong start step.appliedFixes).length = step.appliedFixes.length + 1)
    (sees : step.Foresees m start) : StepsForesee m given (steps ++ [step]) := by
  intro earlier other rest split
  rcases List.eq_nil_or_concat rest with rfl | ⟨rest, last, rfl⟩
  · obtain ⟨rfl, same⟩ := List.append_inj' split rfl
    cases same
    exact ⟨start, begins, apply, sees⟩
  · rw [List.concat_eq_append, ← List.cons_append, ← List.append_assoc] at split
    exact foresee earlier other rest (List.append_inj' split rfl).1

end StepsForesee

/-- The step of an iteration says what the iteration reported and accepted. -/
theorem Round.worked_of_step? {r : Round} {iteration : Nat} {step : HealingStep}
    (written : r.step? iteration = some step) :
    ∃ pass, r = .worked step.defects pass ∧ pass.applied = step.appliedFixes := by
  cases r with
  | cancelled | unjudged | clean => cases written
  | worked reported pass =>
    obtain ⟨current, remaining, applied, ending⟩ := pass
    cases ending with
    | finished =>
      cases written
      exact ⟨_, rfl, rfl⟩
    | failed f =>
      cases applied <;> cases written
      exact ⟨_, rfl, rfl⟩

namespace Session

variable {c : Course} {r : Round}

theorem Iterated.stepsForesee_after (iterated : s.Iterated c.current b r b')
    (descent : Descent b'.memo s.text (appliedFixes c.steps) c.current)
    (foresee : StepsForesee b'.memo s.text c.steps) : StepsForesee b'.memo s.text (c.after r).steps := by
  rw [Course.steps_after]
  cases written : r.step? (c.iterations + 1) with
  | none => simpa using foresee
  | some step =>
    obtain ⟨pass, rfl, applied⟩ := Round.worked_of_step? written
    obtain ⟨_, _, _, _, sound⟩ := iterated.sound
    have apply := sound.descent.length_textsAlong
    have sees := iterated.foreseen
    rw [applied] at apply sees
    exact foresee.concat descent.getLast?_textsAlong apply sees

/-- Over a whole run a step meets, between its fixes, only defects that it reports. -/
theorem Iterating.stepsForesee {left : Nat} {last : Course} {rounds : List Round} {ending : Ending}
    (iterating : s.Iterating left c b rounds last ending b')
    (descent : Descent b.memo s.text (appliedFixes c.steps) c.current)
    (foresee : StepsForesee b.memo s.text c.steps) : StepsForesee b'.memo s.text last.steps := by
  induction iterating with
  | spent => exact foresee
  | ended iterated _ same =>
    rw [same]
    exact iterated.stepsForesee_after (descent.mono iterated.grows) (foresee.mono iterated.grows)
  | next iterated _ _ ih =>
    have descent' := descent.mono iterated.grows
    exact ih (Course.descent_after descent' iterated.sound)
      (iterated.stepsForesee_after descent' (foresee.mono iterated.grows))

theorem Ran.stepsForesee {o : Outcome} (ran : s.Ran b o b') : StepsForesee b'.memo o.given o.steps := by
  have start : StepsForesee b.memo s.text [] := by
    intro earlier step later split
    simp at split
  cases ran with
  | failed iterating same =>
    rw [same]
    exact iterating.stepsForesee .stay start
  | unjudged iterating judging same | finished iterating judging same =>
    rw [same]
    exact (iterating.stepsForesee .stay start).mono (verdict_grows judging)

/-- The last step of a course tells of an iteration that led to where the course is. -/
def Linked (s : Session ω) (answers : Answers) (c : Course) : Prop :=
  ∀ step ∈ c.steps.getLast?, ∃ t b b' pass, s.Iterated t b (.worked step.defects pass) b' ∧
    b.memo.Repeats answers ∧ pass.ending = .finished ∧ c.current = pass.current

theorem Iterated.linked_after (iterated : s.Iterated c.current b r b') (repeats : b.memo.Repeats answers)
    (goes : r.ending? s.maxIterations (c.after r).steps = none) : s.Linked answers (c.after r) := by
  obtain ⟨reported, pass, rfl, finished, _⟩ := Course.ending?_eq_none goes
  intro step last
  have written : (c.after (.worked reported pass)).steps =
      c.steps ++ [.record (c.iterations + 1) reported pass.applied] := by
    simp [Course.after, Round.step?, finished]
  rw [written, List.getLast?_concat] at last
  cases last
  exact ⟨c.current, b, b', pass, iterated, repeats, finished, rfl⟩

theorem Determined.stepsSurface_after (determined : s.Determined answers)
    (iterated : s.Iterated c.current b r b') (repeats : b.memo.Repeats answers) (linked : s.Linked answers c)
    (surface : StepsSurface c.steps) : StepsSurface (c.after r).steps := by
  rw [Course.steps_after]
  refine List.isChain_append.mpr ⟨surface, ?_, fun step last next first some => ?_⟩
  · cases r.step? (c.iterations + 1) with
    | none => exact .nil
    | some step => exact .singleton step
  · obtain ⟨t, b₀, b₁, pass, before, repeats₀, finished, arrived⟩ := linked step last
    have written : r.step? (c.iterations + 1) = .some next := by simpa using first
    obtain ⟨pass', rfl, applied⟩ := Round.worked_of_step? written
    rw [arrived] at iterated
    rw [← applied] at some
    obtain ⟨same, _, unseen⟩ := determined.next_accepts before iterated repeats₀ repeats some (Or.inl finished)
    rw [same]
    exact hasFresh_eq_true_iff.mp unseen

theorem Iterating.stepsSurface (determined : s.Determined answers) {left : Nat} {last : Course}
    {rounds : List Round} {ending : Ending} (iterating : s.Iterating left c b rounds last ending b')
    (repeats : b.memo.Repeats answers) (linked : s.Linked answers c) (surface : StepsSurface c.steps) :
    StepsSurface last.steps := by
  induction iterating with
  | spent => exact surface
  | ended iterated => exact determined.stepsSurface_after iterated repeats linked surface
  | next iterated goes _ ih =>
    have surface' := determined.stepsSurface_after iterated repeats linked surface
    exact ih (repeats.grows determined.follows iterated.grows) (iterated.linked_after repeats goes) surface'

/-- Over a whole run a step that accepts a fix reports some defect that the step before it did not.
-/
theorem Ran.stepsSurface (determined : s.Determined answers) {o : Outcome} (ran : s.Ran b o b')
    (repeats : b.memo.Repeats answers) : StepsSurface o.steps := by
  obtain ⟨c, ending, last, iterating, steps, _⟩ := ran.iterating
  rw [steps]
  exact iterating.stepsSurface determined repeats (fun step none => by cases none) .nil

/-- A session from one memo to another keeps to its rounds: between the fixes of a step only defects come up
that the step reports, and where the text alone decides, a step that accepts a fix reports some defect that
the step before it does not. -/
structure KeepsRounds (s : Session ω) (before : Memo) (o : Outcome) (after : Memo) : Prop where
  grows : Memo.Grows s.oracle before after
  foresee : StepsForesee after o.given o.steps
  surface : ∀ answers, s.Determined answers → before.Repeats answers → StepsSurface o.steps

theorem run_keepsRounds (s : Session ω) (b : Bench ω) : s.KeepsRounds b.memo (s.run b).1 (s.run b).2.memo where
  grows := (s.run_ran b).delivers.1
  foresee := (s.run_ran b).stepsForesee
  surface _ determined repeats := (s.run_ran b).stepsSurface determined repeats

/-- Whatever the oracle and the generators do, and whatever the number of iterations, a session keeps to its
rounds. -/
theorem fresh_rounds (s : Session ω) (b : Bench ω) : s.KeepsRounds b.memo (s.run b).1 (s.run b).2.memo ∧
    ∀ budget : Json, s.KeepsRounds b.memo (s.runLoosely budget b).1 (s.runLoosely budget b).2.memo := by
  refine ⟨s.run_keepsRounds b, fun budget => ?_⟩
  rcases s.runLoosely_cases budget b with ⟨n, text, run⟩ | ⟨f, outcome, same⟩
  · rw [run]
    obtain ⟨grows, foresee, surface⟩ :=
      run_keepsRounds { s with budgetText := text, maxIterations := n } b
    exact ⟨grows, foresee, fun answers determined => surface answers ⟨determined.follows, determined.proposes⟩⟩
  · rw [outcome, same]
    exact ⟨.refl, fun _ _ _ split => by simp [Session.outcome] at split, fun _ _ _ => .nil⟩

/-- The way down the stairs from "w" leads over a text with a new defect. -/
theorem staircase_fresh_rounds : StepsSurface ((staircase "w").run (Bench.fresh 0)).1.steps ∧
    StepsForesee ((staircase "w").run (Bench.fresh 0)).2.memo ((staircase "w").run (Bench.fresh 0)).1.given
      ((staircase "w").run (Bench.fresh 0)).1.steps := by
  obtain ⟨_, foresee, surface⟩ := (fresh_rounds (staircase "w") (Bench.fresh 0)).1
  exact ⟨surface stairs (staircase_determined "w") .empty, foresee⟩

end Session

end Mender
