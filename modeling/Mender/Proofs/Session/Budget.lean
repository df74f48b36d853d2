import Mender.Proofs.Session.Determined
import Mender.Proofs.Session.Log
import Mender.Proofs.Session.Replay

namespace Mender

namespace Round

/-- The text that an iteration on a text arrives at. -/
def arrival (t : Text) : Round → Text
  | worked _ pass => pass.current
  | cancelled | unjudged _ | clean => t

/-- The iteration leaves nothing to be done: it accepted no fix, left a clean text, or failed. -/
def Settled : Round → Prop
  | worked _ pass => pass.applied = [] ∨ pass.remaining = [] ∨ pass.ending ≠ .finished
  | cancelled | unjudged _ | clean => True

theorem accepted_unnamed (r : Round) : r.unnamed.accepted = r.accepted.map Fix.unnamed := by
  cases r <;> rfl

theorem arrival_unnamed (r : Round) (t : Text) : r.unnamed.arrival t = r.arrival t := by
  cases r <;> rfl

/-- An iteration that accepts nothing stays where it is. -/
theorem Sound.arrival_eq {ω : Type} {s : Session ω} {m : Memo} {t : Text} {r : Round} (sound : r.Sound s m t)
    (idle : r.accepted = []) : r.arrival t = t := by
  cases r with
  | cancelled | unjudged | clean => rfl
  | worked reported pass =>
    obtain ⟨_, _, _, _, pass_sound⟩ := sound
    have descent := pass_sound.descent
    rw [show pass.applied = [] from idle] at descent
    exact descent.eq_of_nil

/-- A session stops after an iteration that leaves nothing to be done, or when its iterations are used up. -/
theorem settled_of_ending? {c : Course} {r : Round} {maxIterations : Int} {ending : Ending}
    (stops : r.ending? maxIterations (c.after r).steps = some ending) :
    r.Settled ∨ ending = .stopped .maxIterations ∧ maxIterations ≤ (c.iterations + 1 : Nat) := by
  cases r with
  | cancelled | unjudged | clean => exact Or.inl trivial
  | worked reported pass =>
    cases last : pass.ending with
    | failed f => exact Or.inl (Or.inr (Or.inr (by rw [last]; nofun)))
    | finished =>
      rw [c.ending?_finished reported last] at stops
      by_cases idle : pass.applied = []
      · exact Or.inl (Or.inl idle)
      by_cases clean : pass.remaining = []
      · exact Or.inl (Or.inr (Or.inl clean))
      rw [if_neg idle, if_neg clean] at stops
      split at stops
      next used =>
        cases stops
        exact Or.inr ⟨rfl, used⟩
      next => cases stops

end Round

theorem Course.current_after (c : Course) (r : Round) : (c.after r).current = r.arrival c.current := by
  cases r <;> rfl

section Climb

variable {rounds : Text → Round} {t : Text}

/-- So many iterations in a row, whatever each of them comes to: the text at the end, and all fixes that
were accepted on the way. -/
def climb (rounds : Text → Round) : Nat → Text → Text × List Fix
  | 0, t => (t, [])
  | n + 1, t =>
    let later := climb rounds n ((rounds t).arrival t)
    (later.1, (rounds t).accepted ++ later.2)

theorem climb_add (n m : Nat) (t : Text) : climb rounds (n + m) t =
    ((climb rounds m (climb rounds n t).1).1,
      (climb rounds n t).2 ++ (climb rounds m (climb rounds n t).1).2) := by
  induction n generalizing t with
  | zero => simp [climb]
  | succ n ih => rw [Nat.succ_add, climb, ih, climb, List.append_assoc]

theorem climb_of_idle (idle : (rounds t).accepted = []) (stays : (rounds t).arrival t = t) (n : Nat) :
    climb rounds n t = (t, []) := by
  induction n with
  | zero => rfl
  | succ n ih => simp only [climb, stays, idle, ih, List.append_nil]

end Climb

namespace Session

variable {ω : Type} {answers : Answers} {s : Session ω} {t : Text} {b b' : Bench ω}

/-- Nobody cancels the session, and no ranking fails at its start. -/
structure Undisturbed (s : Session ω) : Prop where
  uncancelled : ∀ w, s.cancelled w = false
  ranked : ∀ w, (s.atRanking w).1 = none

/-- The session on another text, with another number of iterations. -/
def on (s : Session ω) (t : Text) (budget : Int) : Session ω :=
  { s with text := t, maxIterations := budget, budgetText := Text.ofInt budget }

/-- What an iteration on a text comes to at a fresh bench, names left aside. -/
def roundOn (s : Session ω) (w : ω) (t : Text) : Round := (s.round 1 t (Bench.fresh w)).1.unnamed

theorem Determined.coupled_on (determined : s.Determined answers) (undisturbed : s.Undisturbed) (t : Text)
    (budget : Int) : Session.Coupled answers (fun _ _ => True) s (s.on t budget) where
  follows := determined.follows
  follows' := determined.follows
  limit := rfl
  keeps _ _ _ _ := trivial
  keeps' _ _ _ _ := trivial
  cancelled w w' _ := (undisturbed.uncancelled w).trans (undisturbed.uncancelled w').symm
  ranking w w' _ := ⟨(undisturbed.ranked w).trans (undisturbed.ranked w').symm, trivial⟩
  candidates t found _ :=
    (determined.fixesForAll_couples s.generatorLimit t (Defect.prioritize found)).mono
      fun _ _ => Alike.of_unnamed

/-- An iteration comes to the same in every session that differs in the given text and the budget only, and
whatever was judged before. -/
theorem Determined.round_on (determined : s.Determined answers) (undisturbed : s.Undisturbed) (w : ω)
    (start : Text) (budget : Int) (iteration : Nat) (t : Text) (repeats : b.memo.Repeats answers) :
    ((s.on start budget).round iteration t b).1.unnamed = s.roundOn w t := by
  have coupled := determined.coupled_on undisturbed start budget
  exact ((coupled.round 1 iteration t) (Bench.fresh w) b ⟨.empty, repeats, trivial⟩).1.symm

variable {start : Text} {budget : Int} {r : Round}

/-- Where an iteration has left nothing to be done, another one accepts nothing. -/
theorem Determined.idle_after (determined : s.Determined answers) (undisturbed : s.Undisturbed) (w : ω)
    {iteration : Nat} (run : (s.on start budget).round iteration t b = (r, b'))
    (repeats : b.memo.Repeats answers) (settled : r.Settled) :
    (s.roundOn w (r.arrival t)).accepted = [] := by
  have here := determined.round_on undisturbed w start budget iteration t repeats
  have iterated := round_iterated run
  rw [run] at here
  refine Decidable.byContradiction fun some => ?_
  -- An iteration that accepted nothing is only repeated. One that accepted something arrived at another text,
  -- where its last search is repeated.
  by_cases idle : r.accepted = []
  · rw [iterated.sound.arrival_eq idle, ← here, Round.accepted_unnamed, idle] at some
    exact some rfl
  have repeats' := repeats.grows determined.follows iterated.grows
  have there := determined.round_on undisturbed w start budget 1 (r.arrival t) repeats'
  obtain ⟨r', b'', again⟩ : ∃ r' b'', (s.on start budget).round 1 (r.arrival t) b' = (r', b'') := ⟨_, _, rfl⟩
  rw [again] at there
  rw [← there, Round.accepted_unnamed] at some
  have next := round_iterated again
  have determined' : (s.on start budget).Determined answers := ⟨determined.follows, determined.proposes⟩
  cases r with
  | cancelled | unjudged | clean => exact idle rfl
  | worked reported pass =>
    cases r' with
    | cancelled | unjudged | clean => exact some rfl
    | worked reported' pass' =>
      have accepts : pass'.applied ≠ [] := fun none => some (by simp [Round.accepted, none])
      obtain ⟨_, finished, unseen⟩ := determined'.next_accepts iterated next repeats repeats' accepts
        (Or.inr undisturbed.ranked)
      rcases settled with none | clean | failed
      · exact idle none
      · simp [clean, hasFresh] at unseen
      · exact failed finished

theorem climb_roundOn_of_idle {w : ω} (idle : (s.roundOn w t).accepted = []) (n : Nat) :
    climb (s.roundOn w) n t = (t, []) := by
  refine climb_of_idle idle ?_ n
  obtain ⟨r, b', run⟩ : ∃ r b', s.round 1 t (Bench.fresh w) = (r, b') := ⟨_, _, rfl⟩
  rw [roundOn, run, Round.accepted_unnamed, List.map_eq_nil_iff] at idle
  rw [roundOn, run, Round.arrival_unnamed, (round_iterated run).sound.arrival_eq idle]

/-- The iterations of a session climb as far as its budget lets them, or they come to rest before. -/
theorem Determined.iterate_climb (determined : s.Determined answers) (undisturbed : s.Undisturbed) (w : ω)
    {left : Nat} {c last : Course} {ending : Ending}
    (run : (s.on start budget).iterate left c b = ((last, ending), b')) (repeats : b.memo.Repeats answers)
    (room : c.iterations + left = budget.toNat) :
    last.current = (climb (s.roundOn w) left c.current).1 ∧
      (appliedFixes last.steps).map Fix.unnamed =
        (appliedFixes c.steps).map Fix.unnamed ++ (climb (s.roundOn w) left c.current).2 ∧
      (ending = .stopped .maxIterations ∨ (s.roundOn w last.current).accepted = []) := by
  induction left generalizing c b with
  | zero =>
    cases run
    exact ⟨rfl, by simp [climb], Or.inl rfl⟩
  | succ left ih =>
    unfold iterate at run
    obtain ⟨r, b₁, ran, run⟩ := StateM.bind_eq_iff.mp run
    have here := determined.round_on undisturbed w start budget (c.iterations + 1) c.current repeats
    rw [ran] at here
    have repeats' := repeats.grows determined.follows (round_iterated ran).grows
    have fixes : (appliedFixes (c.after r).steps).map Fix.unnamed =
        (appliedFixes c.steps).map Fix.unnamed ++ (s.roundOn w c.current).accepted := by
      rw [c.appliedFixes_after, List.map_append, ← here, Round.accepted_unnamed]
    have arrives : (c.after r).current = (s.roundOn w c.current).arrival c.current := by
      rw [c.current_after, ← here, Round.arrival_unnamed]
    cases stops : r.ending? (s.on start budget).maxIterations (c.after r).steps with
    | none =>
      simp only [stops] at run
      have counted := Course.counts_of_goes stops
      obtain ⟨current, steps, rest⟩ := ih run repeats' (by omega)
      rw [arrives] at current steps
      exact ⟨current, by rw [steps, fixes, climb, List.append_assoc], rest⟩
    | some stop =>
      simp only [stops] at run
      obtain ⟨_, _, noted, run⟩ := StateM.bind_eq_iff.mp run
      cases run
      -- The climb goes on where the session stops, but it does not get anywhere.
      have idle := fun settled => determined.idle_after undisturbed w ran repeats settled
      rw [← c.current_after] at idle
      have done : climb (s.roundOn w) left (c.after r).current = ((c.after r).current, []) := by
        rcases Round.settled_of_ending? stops with settled | ⟨_, used⟩
        · exact climb_roundOn_of_idle (idle settled) left
        · have none : left = 0 := by
            have used : budget ≤ (c.iterations + 1 : Nat) := used
            omega
          rw [none, climb]
      rw [climb, ← arrives, done]
      refine ⟨rfl, by rw [fixes, List.append_nil], ?_⟩
      rcases Round.settled_of_ending? stops with settled | ⟨spent, _⟩
      · exact Or.inr (idle settled)
      · exact Or.inl spent

/-- A session gets as far as its budget lets it climb, and it stops early on its own account only where it
has come to rest. -/
theorem Determined.run_climb (determined : s.Determined answers) (undisturbed : s.Undisturbed) (w : ω)
    {o : Outcome} (run : (s.on start budget).run b = (o, b')) (repeats : b.memo.Repeats answers) :
    o.healed = (climb (s.roundOn w) budget.toNat start).1 ∧
      (appliedFixes o.steps).map Fix.unnamed = (climb (s.roundOn w) budget.toNat start).2 ∧
      (o.stopReason = .converged ∨ o.stopReason = .noProgress → (s.roundOn w o.healed).accepted = []) := by
  obtain ⟨c, ending, b₁, iterated, healed, steps, stopped⟩ := run_iterate run
  have climbed := determined.iterate_climb undisturbed w iterated repeats (Nat.zero_add _)
  rw [← healed, ← steps] at climbed
  obtain ⟨arrived, fixes, rest⟩ := climbed
  refine ⟨arrived, fixes, fun early => ?_⟩
  rcases rest with spent | idle
  · rcases early with early | early <;> cases (stopped _ (by simp) (by simp) early).symm.trans spent
  · exact idle

/-- A session that goes on with the text that another one handed back hands back what one session with both
budgets does, and the fixes of the two add up to those of the one. If the first has stopped because the text
was clean or nothing helped, the second accepts nothing and leaves the text as it is. -/
theorem budgets_add (determined : s.Determined answers) (undisturbed : s.Undisturbed) (t : Text) (n m : Nat)
    {b₁ b₂ b₃ : Bench ω} (repeats₁ : b₁.memo.Repeats answers) (repeats₂ : b₂.memo.Repeats answers)
    (repeats₃ : b₃.memo.Repeats answers) :
    let first := ((s.on t n).run b₁).1
    let second := ((s.on first.healed m).run b₂).1
    let whole := ((s.on t (n + m : Nat)).run b₃).1
    second.healed = whole.healed ∧ first.totalFixes + second.totalFixes = whole.totalFixes ∧
      (first.stopReason = .converged ∨ first.stopReason = .noProgress →
        appliedFixes second.steps = [] ∧ second.totalFixes = 0 ∧ second.healed = first.healed) := by
  intro first second whole
  let climbs := climb (s.roundOn b₁.desk.world)
  obtain ⟨healed₁, fixes₁, rest⟩ : first.healed = (climbs n t).1 ∧
      (appliedFixes first.steps).map Fix.unnamed = (climbs n t).2 ∧ _ :=
    determined.run_climb undisturbed b₁.desk.world rfl repeats₁
  obtain ⟨healed₂, fixes₂, _⟩ : second.healed = (climbs m first.healed).1 ∧
      (appliedFixes second.steps).map Fix.unnamed = (climbs m first.healed).2 ∧ _ :=
    determined.run_climb undisturbed b₁.desk.world rfl repeats₂
  obtain ⟨healed₃, fixes₃, _⟩ : whole.healed = (climbs (n + m) t).1 ∧
      (appliedFixes whole.steps).map Fix.unnamed = (climbs (n + m) t).2 ∧ _ :=
    determined.run_climb undisturbed b₁.desk.world rfl repeats₃
  have together : climbs (n + m) t =
      ((climbs m first.healed).1, (climbs n t).2 ++ (climbs m first.healed).2) := by
    rw [healed₁]
    exact climb_add n m t
  have counts {start : Text} {budget : Int} (b : Bench ω) :
      ((s.on start budget).run b).1.totalFixes =
        ((appliedFixes ((s.on start budget).run b).1.steps).map Fix.unnamed).length := by
    rw [List.length_map]
    exact ((s.on start budget).run_replays b).2.2.total
  have secondCount : second.totalFixes = (climbs m first.healed).2.length := by rw [← fixes₂, ← counts]
  refine ⟨by rw [healed₂, healed₃, together], ?_, fun early => ?_⟩
  · have firstCount : first.totalFixes = (climbs n t).2.length := by rw [← fixes₁, ← counts]
    have wholeCount : whole.totalFixes = (climbs (n + m) t).2.length := by rw [← fixes₃, ← counts]
    rw [firstCount, secondCount, wholeCount, together, List.length_append, Int.natCast_add]
  · have still : climbs m first.healed = (first.healed, []) := climb_roundOn_of_idle (rest early) m
    rw [still] at healed₂ fixes₂ secondCount
    exact ⟨List.map_eq_nil_iff.mp fixes₂, secondCount, healed₂⟩

/-- Two sessions on the last stair: the first one takes it, and nothing is left for the second. -/
theorem staircase_budgets_add :
    let first := (((staircase "y").on "y" 1).run (Bench.fresh 0)).1
    let second := (((staircase "y").on first.healed 2).run (Bench.fresh 0)).1
    let whole := (((staircase "y").on "y" 3).run (Bench.fresh 0)).1
    first.stopReason = .converged ∧ first.healed = "z" ∧ second.totalFixes = 0 ∧
      second.healed = whole.healed ∧ first.totalFixes + second.totalFixes = whole.totalFixes := by
  intro first second whole
  have converged : first.stopReason = .converged ∧ first.healed = "z" := by decide +kernel
  have unjudged : (Bench.fresh 0).memo.Repeats stairs := .empty
  obtain ⟨healed, fixes, rest⟩ := budgets_add (staircase_determined "y")
    ⟨fun _ => rfl, fun _ => rfl⟩ "y" 1 2 unjudged unjudged unjudged
  exact ⟨converged.1, converged.2, (rest (Or.inl converged.1)).2.1, healed, fixes⟩

end Session

end Mender
