import Mender.Generator.Standard
import Mender.Proofs.Session.Course

namespace Mender

namespace Round

/-- The step of an iteration if every one is recorded that began to look for fixes. -/
def dueStep? (iteration : Nat) : Round → Option HealingStep
  | cancelled | unjudged _ | clean => none
  | worked reported pass => some (.record iteration reported pass.applied)

/-- The iteration began to look for fixes and failed before it had accepted one. -/
def Lost (r : Round) : Prop :=
  ∃ reported pass f, r = worked reported pass ∧ pass.ending = .failed f ∧ pass.applied = []

variable {r : Round}

theorem dueStep?_of_lost (lost : r.Lost) (iteration : Nat) :
    r.step? iteration = none ∧
      ∃ reported, r.dueStep? iteration = some (.record iteration reported []) := by
  obtain ⟨reported, ⟨current, remaining, applied, ending⟩, f, rfl, failed, none⟩ := lost
  cases failed
  cases none
  exact ⟨rfl, reported, rfl⟩

theorem dueStep?_of_not_lost (kept : ¬r.Lost) (iteration : Nat) :
    r.dueStep? iteration = r.step? iteration := by
  cases r with
  | cancelled | unjudged | clean => rfl
  | worked reported pass =>
    obtain ⟨current, remaining, applied, ending⟩ := pass
    cases ending with
    | finished => rfl
    | failed f =>
      cases applied with
      | cons => rfl
      | nil => exact (kept ⟨reported, _, f, rfl, rfl, rfl⟩).elim

/-- A session fails in the iteration that is lost. -/
theorem Lost.ending? (lost : r.Lost) (maxIterations : Int) (steps : List HealingStep) :
    ∃ f, r.ending? maxIterations steps = some (.failed f) := by
  obtain ⟨reported, ⟨current, remaining, applied, ending⟩, f, rfl, failed, _⟩ := lost
  cases failed
  exact ⟨f, rfl⟩

theorem Lost.counts (lost : r.Lost) (c : Course) : (c.after r).iterations = c.iterations + 1 := by
  obtain ⟨reported, pass, f, rfl, _⟩ := lost
  rfl

end Round

/-- The steps that are written of iterations, the first of which has the given number. -/
def stepsFrom (write : Nat → Round → Option HealingStep) (iteration : Nat) :
    List Round → List HealingStep
  | [] => []
  | r :: rounds => (write iteration r).toList ++ stepsFrom write (iteration + 1) rounds

namespace Course

theorem counts_of_goes {c : Course} {r : Round} {maxIterations : Int}
    (goes : r.ending? maxIterations (c.after r).steps = none) :
    (c.after r).iterations = c.iterations + 1 := by
  obtain ⟨_, _, rfl, _⟩ := ending?_eq_none goes
  rfl

end Course

namespace Session

variable {ω : Type}

namespace Iterating

variable {s : Session ω} {left : Nat} {c last : Course} {b b' : Bench ω} {rounds : List Round}
  {ending : Ending}

theorem steps_eq (iterating : s.Iterating left c b rounds last ending b') :
    last.steps = c.steps ++ stepsFrom Round.step? (c.iterations + 1) rounds := by
  induction iterating with
  | spent => simp [stepsFrom]
  | ended => simp [stepsFrom, Course.steps_after]
  | next _ goes _ ih =>
    rw [ih, Course.counts_of_goes goes, Course.steps_after, List.append_assoc]
    rfl

/-- The steps that are due are the ones that were written, and at most one more, which was lost in the
last iteration. -/
theorem missing (iterating : s.Iterating left c b rounds last ending b') :
    ∃ missing, stepsFrom Round.dueStep? (c.iterations + 1) rounds =
        stepsFrom Round.step? (c.iterations + 1) rounds ++ missing ∧
      (missing = [] ↔ ∀ r ∈ rounds, ¬r.Lost) ∧
      (missing = [] ∨ ∃ reported f,
        missing = [.record last.iterations reported []] ∧ ending = .failed f) := by
  induction iterating with
  | spent => exact ⟨[], rfl, by simp, Or.inl rfl⟩
  | @ended _ c _ r _ ending _ _ stops _ =>
    by_cases lost : r.Lost
    · obtain ⟨unwritten, reported, due⟩ := Round.dueStep?_of_lost lost (c.iterations + 1)
      obtain ⟨f, fails⟩ := lost.ending? s.maxIterations (c.after r).steps
      rw [fails] at stops
      cases stops
      refine ⟨[.record (c.iterations + 1) reported []], ?_, ?_, Or.inr ⟨reported, f, ?_, rfl⟩⟩
      · simp [stepsFrom, unwritten, due]
      · simpa using lost
      · rw [lost.counts]
    · refine ⟨[], ?_, by simpa using lost, Or.inl rfl⟩
      simp [stepsFrom, Round.dueStep?_of_not_lost lost]
  | @next _ c _ r _ rounds _ _ _ _ goes _ ih =>
    have kept : ¬r.Lost := by
      intro lost
      obtain ⟨f, fails⟩ := lost.ending? s.maxIterations (c.after r).steps
      rw [fails] at goes
      cases goes
    obtain ⟨missing, due, complete, shape⟩ := ih
    rw [Course.counts_of_goes goes] at due
    refine ⟨missing, ?_, ?_, shape⟩
    · simp only [stepsFrom, due, Round.dueStep?_of_not_lost kept, List.append_assoc]
    · simpa [kept] using complete

end Iterating

/-- What a session says about the course that its iterations took. -/
theorem Ran.iterating {s : Session ω} {b b' : Bench ω} {o : Outcome} (ran : s.Ran b o b') :
    ∃ c ending last,
      s.Iterating s.maxIterations.toNat ⟨s.text, 0, []⟩ (s.announce b).2 (s.history b).1 c ending last ∧
      o.steps = c.steps ∧ o.iterations = c.iterations ∧
      ∀ f, ending = .failed f → o.stopReason = f.reason := by
  cases ran with
  | failed iterating =>
    refine ⟨_, _, _, iterating, rfl, rfl, ?_⟩
    rintro _ ⟨⟩
    rfl
  | unjudged iterating => exact ⟨_, _, _, iterating, rfl, rfl, nofun⟩
  | finished iterating => exact ⟨_, _, _, iterating, rfl, rfl, nofun⟩

/-- The log of a session is complete exactly if no iteration was lost. If one was, it was the last one,
and its step is all that the log lacks. -/
theorem log_complete_iff (s : Session ω) (b : Bench ω) :
    ((s.run b).1.steps = stepsFrom Round.dueStep? 1 (s.history b).1 ↔
      ∀ r ∈ (s.history b).1, ¬r.Lost) ∧
    ((s.run b).1.steps = stepsFrom Round.dueStep? 1 (s.history b).1 ∨
      ∃ reported f, (s.run b).1.stopReason = Failure.reason f ∧
        stepsFrom Round.dueStep? 1 (s.history b).1 =
          (s.run b).1.steps ++ [.record (s.run b).1.iterations.toNat reported []]) := by
  obtain ⟨c, ending, _, iterating, steps, iterations, failed⟩ := (s.run_ran b).iterating
  obtain ⟨missing, due, complete, shape⟩ := iterating.missing
  have logged : (s.run b).1.steps = stepsFrom Round.step? 1 (s.history b).1 :=
    steps.trans iterating.steps_eq
  rw [Nat.zero_add, ← logged] at due
  rw [due, ← complete, List.self_eq_append_right, iterations, Int.toNat_natCast]
  refine ⟨Iff.rfl, shape.imp_right ?_⟩
  rintro ⟨reported, f, rfl, fails⟩
  exact ⟨reported, f, failed f fails, rfl⟩

/-- The one defect of a text with two lines. -/
def spareLine : Defect := ⟨"unused thing", .error, some .textStart, some "unused-binding", none⟩

/-- A session whose oracle breaks down on every text but the given one. -/
def brittle : Session Unit where
  id := "S"
  text := "x\ny"
  oracle := fun t w =>
    (if t = "x\ny" then .defects [spareLine] else .trouble (.raised ⟨"RuntimeError", "lost"⟩), w)
  generators := standardGenerators Tuning.standard "" none none
  maxIterations := 5
  oracleLimit := .none
  generatorLimit := .none
  manual := ""
  cancelled := fun _ => false
  atRanking := fun w => (none, w)

/-- The first iteration reports a defect, and no step tells of it. -/
theorem brittle_loses_iteration :
    (brittle.run (Bench.fresh ())).1.steps = [] ∧
      (brittle.run (Bench.fresh ())).1.stopReason = .oracleFailure ∧
      stepsFrom Round.dueStep? 1 (brittle.history (Bench.fresh ())).1 = [.record 1 [spareLine] []] := by
  decide +kernel

end Session

end Mender
