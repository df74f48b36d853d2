import Mender.Proofs.Session.Alongside
import Mender.Proofs.Session.Budget

namespace Mender

variable {ω ω' : Type}

/-- Two desks in worlds that are related, with as much patience left. Journals, waits and turns are left
out of account. -/
structure Desk.InStep (worlds : ω → ω' → Prop) (d : Desk ω) (d' : Desk ω') : Prop where
  world : worlds d.world d'.world
  patience : d.patience = d'.patience

/-- Two benches with the same memo, whose desks are in step. -/
structure Bench.InStep (worlds : ω → ω' → Prop) (b : Bench ω) (b' : Bench ω') : Prop where
  memo : b'.memo = b.memo
  desk : Desk.InStep worlds b.desk b'.desk

/-- Two sessions on the same text whose oracles, generators and rankings do the same in worlds that are
related. They may differ in their budgets and in when they are cancelled. -/
structure Session.InStep (worlds : ω → ω' → Prop) (s : Session ω) (s' : Session ω') : Prop where
  id : s'.id = s.id
  text : s'.text = s.text
  manual : s'.manual = s.manual
  oracleLimit : s'.oracleLimit = s.oracleLimit
  generatorLimit : s'.generatorLimit = s.generatorLimit
  oracle : ∀ t w w', worlds w w' →
    (s.oracle t w).1 = (s'.oracle t w').1 ∧ worlds (s.oracle t w).2 (s'.oracle t w').2
  generators : List.Forall₂ (Generator.Alongside (Desk.InStep worlds)) s.generators s'.generators
  ranking : ∀ w w', worlds w w' →
    (s.atRanking w).1 = (s'.atRanking w').1 ∧ worlds (s.atRanking w).2 (s'.atRanking w').2

/-- The outcome with another reason to stop. -/
def Outcome.stoppedBy (o : Outcome) (reason : StopReason) : Outcome := { o with stopReason := reason }

variable {worlds : ω → ω' → Prop}

theorem Desk.sideBySide_inStep : Desk.SideBySide (Desk.InStep worlds) where
  write _ _ _ _ _ same := ⟨trivial, same.world, same.patience⟩
  pass _ _ _ same := ⟨trivial, same.world, same.patience⟩
  limited _ _ _ same := ⟨trivial, same.world, rfl⟩

theorem Desk.inStep_turn {α : Type} {f : ω → α × ω} {f' : ω' → α × ω'}
    (turns : ∀ w w', worlds w w' → (f w).1 = (f' w').1 ∧ worlds (f w).2 (f' w').2) :
    Agrees (Desk.InStep worlds) (fun _ => Desk.InStep worlds) (Desk.turn f) (Desk.turn f') := by
  intro d d' same
  obtain ⟨result, world⟩ := turns _ _ same.world
  exact ⟨result, world, same.patience⟩

/-- Work that comes to the same on desks in step, whatever is in the memo, comes to the same on benches in
step. -/
theorem Bench.inStep_of_paired {α : Type} {work : StateM (Bench ω) α} {work' : StateM (Bench ω') α}
    {after : Memo → α → Memo}
    (agrees : ∀ m, Agrees (Bench.Paired m (Desk.InStep worlds))
      (fun a => Bench.Paired (after m a) (Desk.InStep worlds)) work work') :
    Agrees (Bench.InStep worlds) (fun _ => Bench.InStep worlds) work work' := by
  intro b b' same
  obtain ⟨result, memo, memo', desk⟩ := agrees b.memo b b' ⟨rfl, same.memo, same.desk⟩
  exact ⟨result, memo'.trans memo.symm, desk⟩

/-- The benches differ in what is written in the journal only. -/
structure Bench.Noted (b b₁ : Bench ω) : Prop where
  memo : b₁.memo = b.memo
  world : b₁.desk.world = b.desk.world
  patience : b₁.desk.patience = b.desk.patience

theorem Bench.InStep.noted {b b₁ : Bench ω} {b' b₁' : Bench ω'} (same : Bench.InStep worlds b b')
    (noted : b.Noted b₁) (noted' : b'.Noted b₁') : Bench.InStep worlds b₁ b₁' where
  memo := by rw [noted.memo, noted'.memo, same.memo]
  desk.world := by
    rw [noted.world, noted'.world]
    exact same.desk.world
  desk.patience := by rw [noted.patience, noted'.patience, same.desk.patience]

theorem Session.noteStop_noted (s : Session ω) (r : Round) (ending : Ending) (b : Bench ω) :
    b.Noted (s.noteStop r ending b).2 := by
  unfold noteStop
  split <;> exact ⟨rfl, rfl, rfl⟩

theorem Bench.verdict_inStep {o : Oracle ω} {o' : Oracle ω'}
    (oracle : ∀ t w w', worlds w w' → (o t w).1 = (o' t w').1 ∧ worlds (o t w).2 (o' t w').2)
    (limit : Limit) (t : Text) :
    Agrees (Bench.InStep worlds) (fun _ => Bench.InStep worlds) (verdict o limit t) (verdict o' limit t) := by
  have turned : Agrees (Desk.InStep worlds) (fun _ => Desk.InStep worlds) (Desk.turn (o.judge t))
      (Desk.turn (o'.judge t)) := by
    refine Desk.inStep_turn fun w w' same => ?_
    obtain ⟨answer, world⟩ := oracle t w w' same
    exact ⟨congrArg Answer.coerce answer, world⟩
  intro b b' same
  by_cases idle : limit.faultUnlessBlank? ≠ none ∨ b.memo.find? t ≠ none
  · obtain ⟨result, memo, memo', desk⟩ :
        (verdict o limit t b).1 = (verdict o' limit t b').1 ∧ Bench.Paired _ _ _ _ :=
      verdict_kept Desk.sideBySide_inStep idle b b' ⟨rfl, same.memo, same.desk⟩
    exact ⟨result, memo'.trans memo.symm, desk⟩
  · obtain ⟨keepable, unknown⟩ : limit.faultUnlessBlank? = none ∧ b.memo.find? t = none := by
      simpa only [not_or, ne_eq, not_not] using idle
    obtain ⟨result, memo, memo', desk⟩ := verdict_asked Desk.sideBySide_inStep Desk.sideBySide_inStep keepable
      unknown turned b b' ⟨rfl, same.memo, same.desk⟩
    exact ⟨result, memo'.trans memo.symm, desk⟩

namespace Session

variable {s : Session ω} {s' : Session ω'}

theorem InStep.parallel (inStep : Session.InStep worlds s s') :
    Session.Parallel (fun _ => Bench.InStep worlds) s s' where
  id := inStep.id
  text := inStep.text
  manual := inStep.manual
  names := Generator.names_alongside inStep.generators
  failing _ _ same := same
  write _ _ _ _ _ same := ⟨rfl, same.noted ⟨rfl, rfl, rfl⟩ ⟨rfl, rfl, rfl⟩⟩
  revisit _ _ same := ⟨rfl, same.noted ⟨rfl, rfl, rfl⟩ ⟨rfl, rfl, rfl⟩⟩
  verdict t := by
    unfold Session.verdict
    rw [inStep.oracleLimit]
    exact Bench.verdict_inStep inStep.oracle s.oracleLimit t
  candidates defects t := by
    unfold Session.candidates
    rw [inStep.generatorLimit]
    have proposed := Generator.fixesForAll_alongside inStep.generators Desk.sideBySide_inStep s.generatorLimit t
      defects
    exact Bench.inStep_of_paired fun m => Bench.Paired.atDesk proposed.agrees
  turn := Bench.inStep_of_paired fun m => Bench.Paired.atDesk (Desk.inStep_turn inStep.ranking)

end Session

/-- With a smaller budget an iteration brings the same ending, unless it is the last one of this budget. -/
theorem Course.ending?_cut (c : Course) (r : Round) {cut budget : Int} (shorter : cut ≤ budget) :
    r.ending? cut (c.after r).steps = r.ending? budget (c.after r).steps ∨
      r.ending? cut (c.after r).steps = some (.stopped .maxIterations) ∧
        r.ending? budget (c.after r).steps = none ∧ cut ≤ (c.iterations + 1 : Nat) := by
  cases r with
  | cancelled | unjudged | clean => exact Or.inl rfl
  | worked reported pass =>
    cases last : pass.ending with
    | failed f => exact Or.inl (by simp only [Round.ending?, last])
    | finished =>
      rw [c.ending?_finished reported last, c.ending?_finished reported last]
      by_cases idle : pass.applied = []
      · exact Or.inl (by rw [if_pos idle, if_pos idle])
      by_cases clean : pass.remaining = []
      · exact Or.inl (by rw [if_neg idle, if_neg idle, if_pos clean, if_pos clean])
      rw [if_neg idle, if_neg idle, if_neg clean, if_neg clean]
      by_cases used : budget ≤ (c.iterations + 1 : Nat)
      · exact Or.inl (by rw [if_pos used, if_pos (by omega)])
      by_cases used' : cut ≤ (c.iterations + 1 : Nat)
      · exact Or.inr ⟨if_pos used', if_neg used, used'⟩
      · exact Or.inl (by rw [if_neg used, if_neg used'])

/-- An iteration after which the budget is used up is the last one of the budget. -/
theorem Course.used_up {c : Course} {r : Round} {budget : Int}
    (stops : r.ending? budget (c.after r).steps = some (.stopped .maxIterations)) :
    budget ≤ (c.iterations + 1 : Nat) := by
  cases r with
  | cancelled | unjudged | clean => cases stops
  | worked reported pass =>
    cases last : pass.ending with
    | failed f =>
      simp only [Round.ending?, last] at stops
      cases stops
    | finished =>
      rw [c.ending?_finished reported last] at stops
      split at stops
      next => cases stops
      next =>
        split at stops
        next => cases stops
        next =>
          split at stops
          next used => exact used
          next => cases stops

namespace Session

/-- The worlds in which the iterations after a course begin, `left` of them at most. In each of them it is
looked up whether the session is cancelled. -/
def startsFrom (s : Session ω) : (left : Nat) → Course → StateM (Bench ω) (List ω)
  | 0, _ => pure []
  | left + 1, course => do
    let here := (← get).desk.world
    let round ← s.round (course.iterations + 1) course.current
    match round.ending? s.maxIterations (course.after round).steps with
    | some ending =>
      s.noteStop round ending
      pure [here]
    | none =>
      let later ← startsFrom s left (course.after round)
      pure (here :: later)

/-- The worlds in which the iterations of a session begin. -/
def starts (s : Session ω) : StateM (Bench ω) (List ω) := do
  s.announce
  s.startsFrom s.maxIterations.toNat ⟨s.text, 0, []⟩

variable {s : Session ω} {s' : Session ω'} {b b₁ : Bench ω} {b' : Bench ω'}

section Iterations

variable {left : Nat} {c : Course} {r : Round}

theorem startsFrom_of_stops {stop : Ending} (ran : s.round (c.iterations + 1) c.current b = (r, b₁))
    (stops : r.ending? s.maxIterations (c.after r).steps = some stop) :
    (s.startsFrom (left + 1) c b).1 = [b.desk.world] := by
  have run : s.startsFrom (left + 1) c b = ([b.desk.world], (s.noteStop r stop b₁).2) := by
    refine StateM.bind_eq_iff.mpr ⟨_, _, rfl, StateM.bind_eq_iff.mpr ⟨r, b₁, ran, ?_⟩⟩
    simp only [stops]
    rfl
  rw [run]

theorem startsFrom_of_goes (ran : s.round (c.iterations + 1) c.current b = (r, b₁))
    (goes : r.ending? s.maxIterations (c.after r).steps = none) :
    (s.startsFrom (left + 1) c b).1 = b.desk.world :: (s.startsFrom left (c.after r) b₁).1 := by
  have run : s.startsFrom (left + 1) c b =
      (b.desk.world :: (s.startsFrom left (c.after r) b₁).1, (s.startsFrom left (c.after r) b₁).2) := by
    refine StateM.bind_eq_iff.mpr ⟨_, _, rfl, StateM.bind_eq_iff.mpr ⟨r, b₁, ran, ?_⟩⟩
    simp only [goes]
    rfl
  rw [run]

/-- The first iteration, if there is one, begins in the world that is there. -/
theorem head_startsFrom (s : Session ω) (left : Nat) (c : Course) (b : Bench ω) :
    (s.startsFrom (left + 1) c b).1[0]? = some b.desk.world := by
  obtain ⟨r, b₁, ran⟩ : ∃ r b₁, s.round (c.iterations + 1) c.current b = (r, b₁) := ⟨_, _, rfl⟩
  cases stops : r.ending? s.maxIterations (c.after r).steps with
  | some stop => rw [startsFrom_of_stops ran stops, List.getElem?_cons_zero]
  | none => rw [startsFrom_of_goes ran stops, List.getElem?_cons_zero]

/-- What is known of the cancelling after a course is known after one more iteration. -/
theorem set_later {k : Nat}
    (set : ∀ i w, (s.startsFrom (left + 1) c b).1[i]? = some w → s.cancelled w = decide (k ≤ c.iterations + i))
    (ran : s.round (c.iterations + 1) c.current b = (r, b₁))
    (goes : r.ending? s.maxIterations (c.after r).steps = none) :
    ∀ i w, (s.startsFrom left (c.after r) b₁).1[i]? = some w →
      s.cancelled w = decide (k ≤ (c.after r).iterations + i) := by
  intro i w began
  rw [Course.counts_of_goes goes, Nat.add_assoc, Nat.add_comm 1 i]
  exact set (i + 1) w (by rw [startsFrom_of_goes ran goes, List.getElem?_cons_succ, began])

end Iterations

/-- An iteration that is cancelled does nothing but say so. -/
theorem round_of_cancelled {iteration : Nat} {t : Text} (stop : s.cancelled b.desk.world = true) :
    ∃ b₁, s.round iteration t b = (.cancelled, b₁) ∧ b.Noted b₁ := by
  let last := (s.say .info ("cancelled before iteration " ++ Text.ofNat iteration) b).2
  refine ⟨last, StateM.bind_eq_iff.mpr ⟨b, b, rfl, ?_⟩, rfl, rfl, rfl⟩
  rw [if_pos stop]
  rfl

/-- How a session ends that is cancelled during iteration `k`, and how the same session ends with a budget of
`k`: the same way, or what is cancelled in one has used up its budget in the other. -/
inductive Cut (k : Nat) (budget : Int) : Ending → Ending → Prop
  | same {ending} : (ending = .stopped .maxIterations → budget ≤ k) → Cut k budget ending ending
  | cut : k < budget → Cut k budget (.stopped .cancelled) (.stopped .maxIterations)

/-- The iterations of a session that is cancelled during iteration `k` come to what they come to with a
budget of `k`. -/
theorem InStep.iterate_cut (inStep : Session.InStep worlds s s') {k : Nat}
    (never : ∀ w, s'.cancelled w = false) (cut : s'.maxIterations = min (k : Int) (max 0 s.maxIterations))
    {left left' : Nat} {c : Course} (same : Bench.InStep worlds b b')
    (room : c.iterations + left = s.maxIterations.toNat) (room' : c.iterations + left' = s'.maxIterations.toNat)
    (set : ∀ i w, (s.startsFrom left c b).1[i]? = some w → s.cancelled w = decide (k ≤ c.iterations + i)) :
    (s.iterate left c b).1.1 = (s'.iterate left' c b').1.1 ∧
      Cut k s.maxIterations (s.iterate left c b).1.2 (s'.iterate left' c b').1.2 ∧
      Bench.InStep worlds (s.iterate left c b).2 (s'.iterate left' c b').2 := by
  induction left generalizing c b b' left' with
  | zero =>
    obtain rfl : left' = 0 := by omega
    exact ⟨rfl, .same fun _ => by omega, same⟩
  | succ left ih =>
    have flag := set 0 _ (s.head_startsFrom left c b)
    cases left' with
    | zero =>
      -- The other session is at its end, and this one is cancelled here.
      have stop : s.cancelled b.desk.world = true := by
        rw [flag, decide_eq_true_eq]
        omega
      obtain ⟨b₁, ran, noted⟩ :
          ∃ b₁, s.round (c.iterations + 1) c.current b = (.cancelled, b₁) ∧ b.Noted b₁ := round_of_cancelled stop
      have unchanged : c.after .cancelled = c := by simp [Course.after, Round.step?]
      rw [iterate_of_stops ran rfl, unchanged]
      exact ⟨rfl, .cut (by omega), same.noted noted ⟨rfl, rfl, rfl⟩⟩
    | succ left' =>
      have going : s.cancelled b.desk.world = s'.cancelled b'.desk.world := by
        rw [flag, never, decide_eq_false_iff_not]
        omega
      obtain ⟨r, b₁, ran⟩ : ∃ r b₁, s.round (c.iterations + 1) c.current b = (r, b₁) := ⟨_, _, rfl⟩
      obtain ⟨r', b₁', ran'⟩ : ∃ r' b₁', s'.round (c.iterations + 1) c.current b' = (r', b₁') := ⟨_, _, rfl⟩
      obtain ⟨rounds, same'⟩ := inStep.parallel.round (c.iterations + 1) c.current b b' ⟨same, going⟩
      rw [ran, ran'] at rounds same'
      cases rounds
      rcases c.ending?_cut r (show s'.maxIterations ≤ s.maxIterations by omega) with endings | ⟨stops', goes, used⟩
      · cases stops : r.ending? s.maxIterations (c.after r).steps with
        | some stop =>
          rw [iterate_of_stops ran stops, iterate_of_stops ran' (endings.trans stops)]
          refine ⟨rfl, .same ?_, same'.noted (s.noteStop_noted ..) (s'.noteStop_noted ..)⟩
          rintro rfl
          have used := Course.used_up stops
          omega
        | none =>
          rw [iterate_of_goes ran stops, iterate_of_goes ran' (endings.trans stops)]
          have counted := Course.counts_of_goes stops
          exact ih same' (by omega) (by omega) (set_later set ran stops)
      · -- The other session ends here, and this one will be cancelled before the next iteration.
        rw [iterate_of_goes ran goes, iterate_of_stops ran' stops']
        have counted := Course.counts_of_goes goes
        have spent : (c.after r).iterations + 0 = s'.maxIterations.toNat := by omega
        have later := set_later set ran goes
        obtain ⟨course, ends, benches⟩ := ih same' (by omega) spent later
        exact ⟨course, ends, benches.noted ⟨rfl, rfl, rfl⟩ (s'.noteStop_noted ..)⟩

section Finale

variable {c : Course} {reason : StopReason}

theorem finale_of_error {e : OracleError} (judging : s.verdict c.current b = (.error e, b₁)) :
    (s.finale c (.stopped reason) b).1 =
      s.outcome c none .oracleFailure Confidence.zero (some (e.message s.manual)) := by
  have run : s.finale c (.stopped reason) b = s.fail c (.oracle e) b₁ :=
    StateM.bind_eq_iff.mpr ⟨_, _, judging, rfl⟩
  rw [run]
  rfl

theorem finale_of_ok {final : List Defect} (judging : s.verdict c.current b = (.ok final, b₁)) :
    (s.finale c (.stopped reason) b).1 =
      s.outcome c (some final) reason (finishedConfidence final.isEmpty c.steps) none := by
  have run : s.finale c (.stopped reason) b = s.finish c reason final b₁ :=
    StateM.bind_eq_iff.mpr ⟨_, _, judging, rfl⟩
  rw [run]
  rfl

/-- A session stops at the end of its budget only if its iterations did. -/
theorem finale_maxIterations {ending : Ending} (stops : (s.finale c ending b).1.stopReason = .maxIterations) :
    ending = .stopped .maxIterations := by
  cases ending with
  | failed f => cases f <;> cases stops
  | stopped reason =>
    obtain ⟨judged, b₁, judging⟩ : ∃ judged b₁, s.verdict c.current b = (judged, b₁) := ⟨_, _, rfl⟩
    cases judged with
    | error e =>
      rw [finale_of_error judging] at stops
      cases stops
    | ok final =>
      rw [finale_of_ok judging] at stops
      exact congrArg Ending.stopped stops

/-- Where one session is cancelled and another one has used up its budget, they end with the same outcome
but for this. -/
theorem InStep.finale_cut (inStep : Session.InStep worlds s s') (c : Course) (same : Bench.InStep worlds b b') :
    let o := (s'.finale c (.stopped .maxIterations) b').1
    (s.finale c (.stopped .cancelled) b).1 =
      o.stoppedBy (if o.stopReason = .maxIterations then .cancelled else o.stopReason) := by
  intro o
  have verdicts := (inStep.parallel.verdict c.current b b' same).1
  obtain ⟨judged, b₁, judging⟩ : ∃ judged b₁, s.verdict c.current b = (judged, b₁) := ⟨_, _, rfl⟩
  obtain ⟨judged', b₁', judging'⟩ : ∃ judged b₁, s'.verdict c.current b' = (judged, b₁) := ⟨_, _, rfl⟩
  rw [judging, judging'] at verdicts
  cases verdicts
  cases judged with
  | error e =>
    have ended : o = _ := finale_of_error judging'
    rw [ended, finale_of_error judging, inStep.parallel.outcome_eq, inStep.manual]
    rfl
  | ok final =>
    have ended : o = _ := finale_of_ok judging'
    rw [ended, finale_of_ok judging, inStep.parallel.outcome_eq]
    rfl

end Finale

/-- A session for whose end somebody asks during iteration `k`, or before the first one if that is zero, comes
to the same outcome as the session that nobody cancels and whose budget is `k` if it is not smaller anyway. If
`k` is within the budget, what is cancelled in the one has used up its budget in the other. -/
theorem cancelled_eq_cut (inStep : Session.InStep worlds s s') (start : Bench.InStep worlds b b') {k : Nat}
    (set : ∀ i w, (s.starts b).1[i]? = some w → s.cancelled w = decide (k ≤ i))
    (never : ∀ w, s'.cancelled w = false)
    (cut : s'.maxIterations = min (k : Int) (max 0 s.maxIterations)) :
    (s.run b).1 = (s'.run b').1.stoppedBy
      (if (s'.run b').1.stopReason = .maxIterations ∧ (k : Int) < s.maxIterations then .cancelled
        else (s'.run b').1.stopReason) := by
  obtain ⟨_, begun⟩ := inStep.parallel.announce b b' start
  have set : ∀ i w, (s.startsFrom s.maxIterations.toNat ⟨s.text, 0, []⟩ (s.announce b).2).1[i]? = some w →
      s.cancelled w = decide (k ≤ 0 + i) := by
    intro i w began
    rw [Nat.zero_add]
    exact set i w began
  obtain ⟨course, ends, same⟩ := inStep.iterate_cut never cut begun (Nat.zero_add _) (Nat.zero_add _) set
  have ran := s.run_eq_finale b
  have ran' := s'.run_eq_finale b'
  rw [inStep.text] at ran'
  generalize s.iterate s.maxIterations.toNat ⟨s.text, 0, []⟩ (s.announce b).2 = last at course ends same ran
  generalize s'.iterate s'.maxIterations.toNat ⟨s.text, 0, []⟩ (s'.announce b').2 = last'
    at course ends same ran'
  obtain ⟨⟨c, ending⟩, b₁⟩ := last
  obtain ⟨⟨c', ending'⟩, b₁'⟩ := last'
  cases course
  rw [ran, ran']
  cases ends with
  | same within =>
    have outcomes := (inStep.parallel.finale c ending b₁ b₁' same).1
    rw [outcomes, if_neg]
    · rfl
    · rintro ⟨stops, beyond⟩
      have used := within (finale_maxIterations stops)
      omega
  | cut beyond =>
    rw [inStep.finale_cut c same]
    simp only [beyond, and_true]

/-- On the last stair, with somebody asking for the end once the oracle was called so many times. -/
def haltingStaircase (calls : Nat) : Session Nat :=
  { staircase "y" with cancelled := fun called => decide (calls ≤ called) }

theorem haltingStaircase_inStep (calls : Nat) (budget : Int) :
    Session.InStep Eq (haltingStaircase calls) ((staircase "y").on "y" budget) where
  id := rfl
  text := rfl
  manual := rfl
  oracleLimit := rfl
  generatorLimit := rfl
  oracle := by
    rintro t w _ rfl
    exact ⟨rfl, rfl⟩
  generators := by
    refine .cons ⟨rfl, fun d t x y same => ⟨rfl, same⟩⟩ .nil
  ranking := by
    rintro w _ rfl
    exact ⟨rfl, rfl⟩

/-- Asked for during the first iteration, the end comes too late to change anything; asked for before it, it
leaves the text as it is. -/
theorem haltingStaircase_eq_cut :
    let run (s : Session Nat) := (s.run (Bench.fresh 0)).1
    run (haltingStaircase 1) = run ((staircase "y").on "y" 1) ∧ (run (haltingStaircase 1)).healed = "z" ∧
      run (haltingStaircase 0) = (run ((staircase "y").on "y" 0)).stoppedBy .cancelled ∧
      (run (haltingStaircase 0)).healed = "y" := by
  intro run
  have set (k : Nat) (starts : ((haltingStaircase k).starts (Bench.fresh 0)).1 = [0]) (i w : Nat)
      (began : ((haltingStaircase k).starts (Bench.fresh 0)).1[i]? = some w) :
      (haltingStaircase k).cancelled w = decide (k ≤ i) := by
    rw [starts, List.getElem?_singleton] at began
    split at began
    next first =>
      cases began
      rw [first]
      rfl
    next => cases began
  have late : run (haltingStaircase 1) = (run ((staircase "y").on "y" 1)).stoppedBy _ :=
    cancelled_eq_cut (haltingStaircase_inStep 1 1) ⟨rfl, rfl, rfl⟩ (set 1 (by decide +kernel)) (fun _ => rfl) rfl
  have early : run (haltingStaircase 0) = (run ((staircase "y").on "y" 0)).stoppedBy _ :=
    cancelled_eq_cut (haltingStaircase_inStep 0 0) ⟨rfl, rfl, rfl⟩ (set 0 (by decide +kernel)) (fun _ => rfl) rfl
  have converged : (run ((staircase "y").on "y" 1)).stopReason = .converged := by decide +kernel
  have used : (run ((staircase "y").on "y" 0)).stopReason = .maxIterations := by decide +kernel
  refine ⟨?_, by decide +kernel, ?_, by decide +kernel⟩
  · rw [late, if_neg (by rw [converged]; nofun)]
    rfl
  · rw [early, if_pos ⟨used, by decide⟩]

end Session

end Mender
