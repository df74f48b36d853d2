import Mender.Proofs.Session.Round

namespace Mender.Session

variable {ω : Type}

/-- The iterations after a course in the order in which they are run, `left` of them at most. -/
def rounds (s : Session ω) : (left : Nat) → Course → StateM (Bench ω) (List Round)
  | 0, _ => pure []
  | left + 1, course => do
    let round ← s.round (course.iterations + 1) course.current
    match round.ending? s.maxIterations (course.after round).steps with
    | some ending =>
      s.noteStop round ending
      pure [round]
    | none =>
      let later ← rounds s left (course.after round)
      pure (round :: later)

def history (s : Session ω) : StateM (Bench ω) (List Round) := do
  s.announce
  s.rounds s.maxIterations.toNat ⟨s.text, 0, []⟩

/-- Iterations as they run from a course, `left` of them at most, to the course at their end. -/
inductive Iterating (s : Session ω) :
    Nat → Course → Bench ω → List Round → Course → Ending → Bench ω → Prop
  | spent {c b} : Iterating s 0 c b [] c (.stopped .maxIterations) b
  | ended {left c b r b₁ ending last} : s.Iterated c.current b r b₁ →
      r.ending? s.maxIterations (c.after r).steps = some ending → last.memo = b₁.memo →
      Iterating s (left + 1) c b [r] (c.after r) ending last
  | next {left c b r b₁ rounds c' ending last} : s.Iterated c.current b r b₁ →
      r.ending? s.maxIterations (c.after r).steps = none →
      Iterating s left (c.after r) b₁ rounds c' ending last →
      Iterating s (left + 1) c b (r :: rounds) c' ending last

variable {s : Session ω} {b b₁ b' : Bench ω} {left : Nat} {c last : Course} {r : Round}

theorem noteStop_memo {ending : Ending} {u : Unit} (run : s.noteStop r ending b = (u, b')) :
    b'.memo = b.memo := by
  unfold noteStop at run
  split at run <;> cases run <;> rfl

theorem rounds_of_stops {stop : Ending} (ran : s.round (c.iterations + 1) c.current b = (r, b₁))
    (stops : r.ending? s.maxIterations (c.after r).steps = some stop) :
    s.rounds (left + 1) c b = ([r], (s.noteStop r stop b₁).2) := by
  refine StateM.bind_eq_iff.mpr ⟨r, b₁, ran, ?_⟩
  simp only [stops]
  rfl

theorem rounds_of_goes (ran : s.round (c.iterations + 1) c.current b = (r, b₁))
    (goes : r.ending? s.maxIterations (c.after r).steps = none) :
    s.rounds (left + 1) c b =
      (r :: (s.rounds left (c.after r) b₁).1, (s.rounds left (c.after r) b₁).2) := by
  refine StateM.bind_eq_iff.mpr ⟨r, b₁, ran, ?_⟩
  simp only [goes]
  rfl

theorem iterate_of_stops {stop : Ending} (ran : s.round (c.iterations + 1) c.current b = (r, b₁))
    (stops : r.ending? s.maxIterations (c.after r).steps = some stop) :
    s.iterate (left + 1) c b = ((c.after r, stop), (s.noteStop r stop b₁).2) := by
  refine StateM.bind_eq_iff.mpr ⟨r, b₁, ran, ?_⟩
  simp only [stops]
  rfl

theorem iterate_of_goes (ran : s.round (c.iterations + 1) c.current b = (r, b₁))
    (goes : r.ending? s.maxIterations (c.after r).steps = none) :
    s.iterate (left + 1) c b = s.iterate left (c.after r) b₁ := by
  refine StateM.bind_eq_iff.mpr ⟨r, b₁, ran, ?_⟩
  simp only [goes]

/-- The loop follows the run relation, with the rounds it lists. -/
theorem iterate_iterating {ending : Ending} (run : s.iterate left c b = ((last, ending), b')) :
    s.Iterating left c b (s.rounds left c b).1 last ending b' := by
  induction left generalizing c b with
  | zero =>
    cases run
    exact .spent
  | succ left ih =>
    obtain ⟨r, b₁, ran⟩ : ∃ r b₁, s.round (c.iterations + 1) c.current b = (r, b₁) := ⟨_, _, rfl⟩
    have iterated := round_iterated ran
    cases stops : r.ending? s.maxIterations (c.after r).steps with
    | some stop =>
      rw [iterate_of_stops ran stops] at run
      have same := noteStop_memo (Prod.eta (s.noteStop r stop b₁)).symm
      cases run
      rw [rounds_of_stops ran stops]
      exact .ended iterated stops same
    | none =>
      rw [iterate_of_goes ran stops] at run
      rw [rounds_of_goes ran stops]
      exact .next iterated stops (ih run)

/-- What is remembered at the start of the loop is remembered at its end. -/
theorem Iterating.grows {rounds : List Round} {ending : Ending}
    (iterating : s.Iterating left c b rounds last ending b') :
    Memo.Grows s.oracle b.memo b'.memo := by
  induction iterating with
  | spent => exact .refl
  | ended iterated _ same => exact same ▸ iterated.grows
  | next iterated _ _ ih => exact iterated.grows.trans ih

/-- A session as it runs: its iterations, and the verdict on the text they arrive at unless they
failed. -/
inductive Ran (s : Session ω) (b : Bench ω) : Outcome → Bench ω → Prop
  | failed {c f b₁ last} :
      s.Iterating s.maxIterations.toNat ⟨s.text, 0, []⟩ (s.announce b).2 (s.history b).1 c (.failed f) b₁ →
      last.memo = b₁.memo →
      Ran s b (s.outcome c none f.reason Confidence.zero (some (f.message s.manual))) last
  | unjudged {c reason b₁ e b₂ last} :
      s.Iterating s.maxIterations.toNat ⟨s.text, 0, []⟩ (s.announce b).2 (s.history b).1 c
        (.stopped reason) b₁ →
      s.verdict c.current b₁ = (.error e, b₂) → last.memo = b₂.memo →
      Ran s b (s.outcome c none .oracleFailure Confidence.zero (some (e.message s.manual))) last
  | finished {c reason b₁ final b₂ last} :
      s.Iterating s.maxIterations.toNat ⟨s.text, 0, []⟩ (s.announce b).2 (s.history b).1 c
        (.stopped reason) b₁ →
      s.verdict c.current b₁ = (.ok final, b₂) → last.memo = b₂.memo →
      Ran s b (s.outcome c (some final) reason (finishedConfidence final.isEmpty c.steps) none) last

theorem run_ran (s : Session ω) (b : Bench ω) : s.Ran b (s.run b).1 (s.run b).2 := by
  obtain ⟨o, b', run⟩ : ∃ o b', s.run b = (o, b') := ⟨_, _, rfl⟩
  rw [run]
  unfold Session.run at run
  obtain ⟨_, b₁, announced, run⟩ := StateM.bind_eq_iff.mp run
  obtain ⟨⟨c, ending⟩, b₂, iterated, run⟩ := StateM.bind_eq_iff.mp run
  have iterating := iterate_iterating iterated
  cases announced
  cases ending with
  | failed f =>
    cases run
    exact .failed iterating rfl
  | stopped reason =>
    obtain ⟨judged, b₃, judging, run⟩ := StateM.bind_eq_iff.mp run
    cases judged with
    | error e =>
      cases run
      exact .unjudged iterating judging rfl
    | ok final =>
      cases run
      exact .finished iterating judging rfl

/-- What a session hands back is where its iterations end, and a reason to stop that is no failure is the
reason why they ended. -/
theorem run_iterate {o : Outcome} (run : s.run b = (o, b')) :
    ∃ c ending b₁, s.iterate s.maxIterations.toNat ⟨s.text, 0, []⟩ (s.announce b).2 = ((c, ending), b₁) ∧
      o.healed = c.current ∧ o.steps = c.steps ∧
      ∀ reason, reason ≠ .oracleFailure → reason ≠ .error → o.stopReason = reason →
        ending = .stopped reason := by
  unfold Session.run at run
  obtain ⟨_, b₁, announced, run⟩ := StateM.bind_eq_iff.mp run
  obtain ⟨⟨c, ending⟩, b₂, iterated, run⟩ := StateM.bind_eq_iff.mp run
  cases announced
  refine ⟨c, ending, b₂, iterated, ?_⟩
  cases ending with
  | failed f =>
    cases run
    refine ⟨rfl, rfl, ?_⟩
    rintro _ oracle error rfl
    cases f with
    | oracle e => exact (oracle rfl).elim
    | unexpected f => exact (error rfl).elim
  | stopped reason =>
    obtain ⟨judged, b₃, _, run⟩ := StateM.bind_eq_iff.mp run
    cases judged with
    | error e =>
      cases run
      exact ⟨rfl, rfl, fun _ oracle _ same => (oracle same.symm).elim⟩
    | ok final =>
      cases run
      exact ⟨rfl, rfl, fun _ _ _ same => congrArg Ending.stopped same⟩

end Mender.Session
