import Mender.Session
import Mender.Proofs.Coupling

namespace Mender

/-- From states that are related before, two pieces of work come to the same result, and the states after
them are related as the result says. -/
def Agrees {σ τ α : Type} (before : σ → τ → Prop) (after : α → σ → τ → Prop) (work : StateM σ α)
    (work' : StateM τ α) : Prop :=
  ∀ x y, before x y → (work x).1 = (work' y).1 ∧ after (work x).1 (work x).2 (work' y).2

namespace Agrees

variable {σ τ α β : Type} {before : σ → τ → Prop} {after : α → σ → τ → Prop} {last : β → σ → τ → Prop}
  {work : StateM σ α} {work' : StateM τ α}

theorem pure {a : α} (related : ∀ x y, before x y → after a x y) :
    Agrees before after (pure a) (pure a) :=
  fun x y same => ⟨rfl, related x y same⟩

/-- Parallel works stay parallel, one after the other. -/
theorem bind {next : α → StateM σ β} {next' : α → StateM τ β} (first : Agrees before after work work')
    (rest : ∀ a, Agrees (after a) last (next a) (next' a)) :
    Agrees before last (work >>= next) (work' >>= next') := by
  intro x y same
  obtain ⟨result, middle⟩ := first x y same
  have goes : (work' >>= next') y = next' (work x).1 (work' y).2 := by
    change next' (work' y).1 (work' y).2 = _
    rw [result]
  rw [goes]
  exact rest _ _ _ middle

/-- Work that looks at the state first. -/
theorem read {next : σ → StateM σ α} {next' : τ → StateM τ α}
    (rest : ∀ b b', before b b' → Agrees before after (next b) (next' b')) :
    Agrees before after (get >>= next) (get >>= next') :=
  fun x y same => rest x y same x y same

theorem of_before {earlier : σ → τ → Prop} (agrees : Agrees before after work work')
    (related : ∀ x y, earlier x y → before x y) : Agrees earlier after work work' :=
  fun x y same => agrees x y (related x y same)

end Agrees

theorem Couples.agrees {σ τ α : Type} {states : σ → τ → Prop} {work : StateM σ α} {work' : StateM τ α}
    (coupled : Couples states Eq work work') : Agrees states (fun _ => states) work work' := coupled

/-- The walk could not be finished. -/
def Walk.broke {count : Nat} : Walk count → Bool
  | failed _ => true
  | accepted _ _ _ _ | exhausted => false

/-- The pass could not be finished. -/
def Pass.broke (pass : Pass) : Bool :=
  match pass.ending with
  | .failed _ => true
  | .finished => false

/-- The iteration could not be finished. -/
def Round.broke : Round → Bool
  | unjudged _ => true
  | worked _ pass => pass.broke
  | cancelled | clean => false

/-- The iterations could not be finished. -/
def Ending.broke : Ending → Bool
  | failed _ => true
  | stopped _ => false

theorem Round.broke_of_stops {r : Round} {maxIterations : Int} {steps : List HealingStep} {ending : Ending}
    (stops : r.ending? maxIterations steps = some ending) : ending.broke = r.broke := by
  cases r with
  | cancelled | unjudged | clean =>
    cases stops
    rfl
  | worked reported pass =>
    simp only [ending?, broke, Pass.broke] at stops ⊢
    cases last : pass.ending with
    | failed f =>
      simp only [last] at stops
      cases stops
      rfl
    | finished =>
      simp only [last] at stops
      obtain ⟨reason, _, rfl⟩ := Option.map_eq_some_iff.mp stops
      rfl

theorem Round.broke_of_goes {r : Round} {maxIterations : Int} {steps : List HealingStep}
    (goes : r.ending? maxIterations steps = none) : r.broke = false := by
  cases r with
  | cancelled | unjudged | clean => cases goes
  | worked reported pass =>
    simp only [ending?, broke, Pass.broke] at goes ⊢
    cases last : pass.ending with
    | finished => rfl
    | failed f =>
      simp only [last] at goes
      cases goes

variable {ω ω' : Type}

/-- The end of a session after its iterations. -/
def Session.finale (s : Session ω) (course : Course) : Ending → StateM (Bench ω) Outcome
  | .failed f => s.fail course f
  | .stopped reason => do
    match ← s.verdict course.current with
    | .error e => s.fail course (.oracle e)
    | .ok final => s.finish course reason final

theorem Session.run_eq_bind (s : Session ω) :
    s.run = s.announce >>= fun _ => s.iterate s.maxIterations.toNat ⟨s.text, 0, []⟩ >>= fun last =>
      s.finale last.1 last.2 := by
  unfold Session.run
  refine bind_congr fun _ => bind_congr fun ⟨c, ending⟩ => ?_
  cases ending <;> rfl

/-- A run announces itself, loops and then reports on what the loop left. -/
theorem Session.run_eq_finale (s : Session ω) (b : Bench ω) :
    s.run b =
      s.finale (s.iterate s.maxIterations.toNat ⟨s.text, 0, []⟩ (s.announce b).2).1.1
        (s.iterate s.maxIterations.toNat ⟨s.text, 0, []⟩ (s.announce b).2).1.2
        (s.iterate s.maxIterations.toNat ⟨s.text, 0, []⟩ (s.announce b).2).2 := by
  rw [run_eq_bind]
  rfl

/-- What two sessions have in common that go the same way. The flag of the states tells whether something
has failed. -/
structure Session.Parallel (states : Bool → Bench ω → Bench ω' → Prop) (s : Session ω) (s' : Session ω') :
    Prop where
  id : s'.id = s.id
  text : s'.text = s.text
  manual : s'.manual = s.manual
  names : s'.generators.map Generator.name = s.generators.map Generator.name
  failing : ∀ x y, states false x y → states true x y
  write : ∀ failed level (message : Text → Text), Agrees (states failed) (fun _ => states failed)
    (Bench.write level .session (message s.budgetText)) (Bench.write level .session (message s'.budgetText))
  revisit : Agrees (states false) (fun _ => states false) (Bench.revisit s.oracleLimit)
    (Bench.revisit s'.oracleLimit)
  verdict : ∀ t, Agrees (states false) (fun result => states !result.isOk) (s.verdict t) (s'.verdict t)
  candidates : ∀ defects t, Agrees (states false) (fun _ => states false) (s.candidates defects t)
    (s'.candidates defects t)
  turn : Agrees (states false) (fun _ => states false) (Bench.atDesk (Desk.turn s.atRanking))
    (Bench.atDesk (Desk.turn s'.atRanking))

namespace Session.Parallel

variable {states : Bool → Bench ω → Bench ω' → Prop} {s : Session ω} {s' : Session ω'}

theorem say (parallel : Session.Parallel states s s') (failed : Bool) (level : Level) (message : Text → Text) :
    Agrees (states failed) (fun _ => states failed) (s.say level (message s.budgetText))
      (s'.say level (message s'.budgetText)) := by
  have written := parallel.write failed level fun budget => "Session " ++ s.id ++ ": " ++ message budget
  unfold Session.say
  rwa [parallel.id]

theorem ranked (parallel : Session.Parallel states s s') (found : List Fix) :
    Agrees (states false) (fun _ => states false) (s.ranked found) (s'.ranked found) := by
  refine parallel.turn.bind fun fault => ?_
  cases fault <;> exact .pure fun _ _ same => same

theorem firstImproving (parallel : Session.Parallel states s s') (t : Text) (count : Nat) (fixes : List Fix) :
    Agrees (states false) (fun walk => states walk.broke) (s.firstImproving t count fixes)
      (s'.firstImproving t count fixes) := by
  have noted : ∀ fix why, Agrees (states false) (fun _ => states false)
      (noteRejected (ω := ω) fix why) (noteRejected (ω := ω') fix why) :=
    fun fix why => parallel.write false .debug fun _ => "Rejected '" ++ fix.title ++ "': " ++ why
  induction fixes with
  | nil => exact .pure fun _ _ same => same
  | cons fix rest ih =>
    unfold Session.firstImproving
    cases fix.apply t with
    | error e => exact (noted fix _).bind fun _ => ih
    | ok candidate =>
      by_cases same : candidate = t
      · simp only [if_pos same]
        exact (noted fix _).bind fun _ => ih
      · simp only [if_neg same]
        refine parallel.revisit.bind fun _ => (parallel.verdict candidate).bind fun judged => ?_
        cases judged with
        | error e => exact .pure fun _ _ same => same
        | ok after =>
          by_cases fewer : after.length < count
          · simp only [dif_pos fewer]
            exact .pure fun _ _ same => same
          · simp only [dif_neg fewer]
            exact (noted fix _).bind fun _ => ih

theorem acceptFixes (parallel : Session.Parallel states s s') (iteration : Nat) (reported : List Defect)
    (t : Text) (defects : List Defect) (applied : List Fix) :
    Agrees (states false) (fun pass => states pass.broke)
      (s.acceptFixes iteration reported t defects applied)
      (s'.acceptFixes iteration reported t defects applied) := by
  -- By induction on the number of defects, which every accepted fix lowers.
  induction size : defects.length using Nat.strongRecOn generalizing t defects applied with
  | _ n ih =>
    subst size
    unfold Session.acceptFixes
    by_cases clean : defects.isEmpty
    · rw [if_pos clean, if_pos clean]
      exact .pure fun _ _ same => same
    rw [if_neg clean, if_neg clean]
    refine (parallel.candidates defects t).bind fun found => (parallel.ranked found).bind fun ranked => ?_
    cases ranked with
    | error f => exact .pure parallel.failing
    | ok fixes =>
      refine (parallel.firstImproving t defects.length fixes).bind fun walk => ?_
      cases walk with
      | failed e => exact .pure fun _ _ same => same
      | exhausted => exact .pure fun _ _ same => same
      | accepted fix healed after fewer =>
        refine (parallel.say false .info fun _ => _).bind fun _ => ?_
        split
        next => exact (parallel.say false .info fun _ => _).bind fun _ => .pure fun _ _ same => same
        next =>
          have smaller : (Defect.prioritize after).length < defects.length := by
            rw [Defect.length_prioritize]
            exact fewer
          exact ih _ smaller _ _ _ rfl

/-- Iterations that are both cancelled or both not come to the same. -/
theorem round (parallel : Session.Parallel states s s') (iteration : Nat) (t : Text) :
    Agrees (fun x y => states false x y ∧ s.cancelled x.desk.world = s'.cancelled y.desk.world)
      (fun r => states r.broke) (s.round iteration t) (s'.round iteration t) := by
  refine Agrees.read fun b b' ⟨_, same⟩ => ?_
  refine Agrees.of_before ?_ fun x y related => related.1
  rw [same]
  split
  next => exact (parallel.say false .info fun _ => _).bind fun _ => .pure fun _ _ same => same
  next =>
    refine (parallel.verdict t).bind fun judged => ?_
    cases judged with
    | error e => exact .pure fun _ _ same => same
    | ok found =>
      cases found with
      | nil => exact (parallel.say false .info fun _ => _).bind fun _ => .pure fun _ _ same => same
      | cons d more =>
        have announced := parallel.say false .info fun budget =>
          "iteration " ++ Text.ofNat iteration ++ "/" ++ budget ++ " — "
            ++ Text.ofNat (Defect.prioritize (d :: more)).length ++ " defects"
        refine announced.bind fun _ => ?_
        exact (parallel.acceptFixes iteration _ t _ []).bind fun pass => .pure fun _ _ same => same

theorem noteStop (parallel : Session.Parallel states s s') (failed : Bool) (r : Round) (ending : Ending) :
    Agrees (states failed) (fun _ => states failed) (s.noteStop r ending) (s'.noteStop r ending) := by
  unfold Session.noteStop
  split
  next => exact parallel.say failed .info fun _ => _
  next => exact .pure fun _ _ same => same

/-- The loops go side by side as long as both sessions see the same cancellation. -/
theorem iterate (parallel : Session.Parallel states s s')
    (cancelled : ∀ x y, states false x y → s.cancelled x.desk.world = s'.cancelled y.desk.world)
    (budget : s'.maxIterations = s.maxIterations) (left : Nat) (c : Course) :
    Agrees (states false) (fun last => states last.2.broke) (s.iterate left c) (s'.iterate left c) := by
  induction left generalizing c with
  | zero => exact .pure fun _ _ same => same
  | succ left ih =>
    unfold Session.iterate
    have rounds := parallel.round (c.iterations + 1) c.current
    refine (rounds.of_before fun x y same => ⟨same, cancelled x y same⟩).bind fun r => ?_
    rw [budget]
    split
    next ending stops =>
      rw [← Round.broke_of_stops stops]
      exact (parallel.noteStop _ r ending).bind fun _ => .pure fun _ _ same => same
    next goes =>
      rw [Round.broke_of_goes goes]
      exact ih _

theorem outcome_eq (parallel : Session.Parallel states s s') (c : Course) (final : Option (List Defect))
    (reason : StopReason) (confidence : Confidence) (error : Option Text) :
    s'.outcome c final reason confidence error = s.outcome c final reason confidence error := by
  unfold Session.outcome
  rw [parallel.id, parallel.text]

theorem fail (parallel : Session.Parallel states s s') (c : Course) (f : Failure) :
    Agrees (states true) (fun _ => states true) (s.fail c f) (s'.fail c f) := by
  unfold Session.fail
  rw [parallel.manual, parallel.outcome_eq]
  exact (parallel.say true .error fun _ => _).bind fun _ => .pure fun _ _ same => same

theorem finish (parallel : Session.Parallel states s s') (c : Course) (reason : StopReason)
    (final : List Defect) :
    Agrees (states false) (fun _ => states false) (s.finish c reason final) (s'.finish c reason final) := by
  unfold Session.finish
  simp only [parallel.outcome_eq]
  exact (parallel.say false .info fun _ => _).bind fun _ => .pure fun _ _ same => same

theorem announce (parallel : Session.Parallel states s s') :
    Agrees (states false) (fun _ => states false) s.announce s'.announce := by
  have names : (s'.generators.map fun g => g.name.shown) = s.generators.map fun g => g.name.shown := by
    have shown := congrArg (List.map Text.shown) parallel.names
    rwa [List.map_map, List.map_map] at shown
  have said := parallel.say false .info fun budget =>
    "starting auto-heal — " ++ Text.ofNat s.text.length ++ " chars, generators="
      ++ shownList (s.generators.map fun g => g.name.shown) ++ ", max_iterations=" ++ budget
  unfold Session.announce
  rw [parallel.text, names]
  exact said

/-- After the loop both sessions report alike. -/
theorem finale (parallel : Session.Parallel states s s') (c : Course) (ending : Ending) :
    Agrees (states ending.broke) (fun _ => states true) (s.finale c ending) (s'.finale c ending) := by
  cases ending with
  | failed f => exact parallel.fail c f
  | stopped reason =>
    refine (parallel.verdict c.current).bind fun judged => ?_
    cases judged with
    | error e => exact parallel.fail c (.oracle e)
    | ok final =>
      intro x y same
      obtain ⟨outcome, last⟩ := parallel.finish c reason final x y same
      exact ⟨outcome, parallel.failing _ _ last⟩

/-- Sessions that are cancelled together and have the same budget come to the same outcome. -/
theorem run (parallel : Session.Parallel states s s')
    (cancelled : ∀ x y, states false x y → s.cancelled x.desk.world = s'.cancelled y.desk.world)
    (budget : s'.maxIterations = s.maxIterations) :
    Agrees (states false) (fun _ => states true) s.run s'.run := by
  rw [run_eq_bind, run_eq_bind, parallel.text, budget]
  refine parallel.announce.bind fun _ => (parallel.iterate cancelled budget _ _).bind fun last => ?_
  exact parallel.finale last.1 last.2

end Session.Parallel

end Mender
