import Mathlib.Data.List.Chain
import Mender.Proofs.Session.Log
import Mender.Proofs.Session.Replay
import Mender.Proofs.Session.Trail

namespace Mender

/-- How many defects the memo has for a text; none for one that was not judged. -/
def Memo.count (m : Memo) (t : Text) : Nat := ((m.find? t).getD []).length

/-- How many defects a step leaves at most. -/
def HealingStep.left (step : HealingStep) : Int := step.defectsFound - step.fixesApplied

/-- By the verdicts of a memo, recorded steps lead from a text to another: each lists the defects of the text
that it started on, the most severe first, and its fixes lead down to the text of the next one. -/
inductive StepsLead (m : Memo) : Text → List HealingStep → Text → Prop
  | stay {t} : StepsLead m t [] t
  | step {t u v found applied steps} (iteration : Nat) : m.find? t = some found → Descent m t applied u →
      StepsLead m u steps v → StepsLead m t (.record iteration (Defect.prioritize found) applied :: steps) v

section Counts

variable {m : Memo} {t u v : Text}

theorem Memo.count_eq {found : List Defect} (known : m.find? t = some found) : m.count t = found.length := by
  rw [count, known, Option.getD_some]

theorem Fewer.count_lt (fewer : Fewer m t u) : m.count u < m.count t := by
  obtain ⟨before, after, atT, atU, less⟩ := fewer
  rw [Memo.count_eq atT, Memo.count_eq atU]
  exact less

/-- Every fix on a way down takes one defect away at least. -/
theorem Descent.count_add_le {fixes : List Fix} (descent : Descent m t fixes u) :
    m.count u + fixes.length ≤ m.count t := by
  induction descent with
  | stay => exact Nat.le_refl _
  | accept _ fewer _ ih =>
    have less := fewer.count_lt
    simp only [List.length_cons]
    omega

namespace StepsLead

variable {steps more : List HealingStep}

theorem trans (first : StepsLead m t steps u) (second : StepsLead m u more v) :
    StepsLead m t (steps ++ more) v := by
  induction first with
  | stay => exact second
  | step iteration known descent _ ih => exact .step iteration known descent (ih second)

theorem mono {ω : Type} {o : Oracle ω} {later : Memo} (leads : StepsLead m t steps u)
    (grows : Memo.Grows o m later) : StepsLead later t steps u := by
  induction leads with
  | stay => exact .stay
  | step iteration known descent _ ih =>
    exact .step iteration (grows.kept known) (descent.mono grows) ih

theorem defectsFound_head (leads : StepsLead m t steps u) :
    ∀ step ∈ steps.head?, step.defectsFound = m.count t := by
  cases leads with
  | stay => exact nofun
  | step iteration known =>
    rintro _ ⟨⟩
    simp only [HealingStep.record, Defect.length_prioritize, Memo.count_eq known]

/-- The defects that a step finds are no more than the step before it left. -/
theorem chain (leads : StepsLead m t steps u) :
    steps.IsChain fun step next => next.defectsFound ≤ step.left := by
  induction leads with
  | stay => exact .nil
  | step iteration known descent rest ih =>
    refine List.isChain_cons.mpr ⟨fun next follows => ?_, ih⟩
    have found := rest.defectsFound_head next follows
    have fewer := descent.count_add_le
    simp only [HealingStep.left, HealingStep.record, Defect.length_prioritize, ← Memo.count_eq known]
    omega

/-- No more defects are left at the end than the last step left. -/
theorem count_le_left (leads : StepsLead m t steps u) :
    ∀ step ∈ steps.getLast?, (m.count u : Int) ≤ step.left := by
  induction leads with
  | stay => exact nofun
  | @step t u v found applied steps iteration known descent rest ih =>
    cases steps with
    | nil =>
      cases rest
      rw [List.getLast?_singleton]
      rintro _ ⟨⟩
      have fewer := descent.count_add_le
      simp only [HealingStep.left, HealingStep.record, Defect.length_prioritize, ← Memo.count_eq known]
      omega
    | cons => simpa only [List.getLast?_cons_cons] using ih

end StepsLead

end Counts

variable {ω : Type} {s : Session ω} {m : Memo} {b b' : Bench ω}

/-- The step of an iteration leads to the text that the iteration arrives at. -/
theorem Round.Sound.leads {c : Course} {r : Round} (sound : r.Sound s m c.current) :
    StepsLead m c.current (r.step? (c.iterations + 1)).toList (c.after r).current := by
  cases r with
  | cancelled | unjudged | clean => exact .stay
  | worked reported pass =>
    obtain ⟨found, knows, _, rfl, pass_sound⟩ := sound
    obtain ⟨current, remaining, applied, ending⟩ := pass
    have descent : Descent m c.current applied current := pass_sound.descent
    have recorded := StepsLead.step (c.iterations + 1) knows.verdict descent .stay
    cases ending with
    | finished => exact recorded
    | failed f =>
      cases applied with
      | cons => exact recorded
      | nil =>
        cases descent
        exact .stay

namespace Session

theorem Iterating.leads {left : Nat} {c last : Course} {rounds : List Round} {ending : Ending}
    (iterating : s.Iterating left c b rounds last ending b') :
    StepsLead b'.memo c.current (stepsFrom Round.step? (c.iterations + 1) rounds) last.current := by
  induction iterating with
  | spent => exact .stay
  | ended iterated _ same =>
    rw [same]
    exact iterated.sound.leads.trans .stay
  | next iterated goes rest ih =>
    rw [Course.counts_of_goes goes] at ih
    exact (iterated.sound.mono rest.grows).leads.trans ih

/-- The steps of a session lead from the text it was given to the one it hands back. -/
theorem Ran.leads {o : Outcome} (ran : s.Ran b o b') : StepsLead b'.memo s.text o.steps o.healed := by
  have lead {c : Course} {ending : Ending} {first last : Bench ω} {rounds : List Round}
      (iterating : s.Iterating s.maxIterations.toNat ⟨s.text, 0, []⟩ first rounds c ending last) :
      StepsLead last.memo s.text c.steps c.current := by
    rw [iterating.steps_eq]
    exact iterating.leads
  cases ran with
  | failed iterating same =>
    rw [same]
    exact lead iterating
  | unjudged iterating judging same | finished iterating judging same =>
    rw [same]
    exact (lead iterating).mono (verdict_grows judging)

/-- A session hands back the verdict on its text, unless it failed. -/
theorem Ran.final_known {o : Outcome} (ran : s.Ran b o b') :
    (∃ final, o.final = some final ∧ b'.memo.find? o.healed = some final) ∨ o.final = none ∧ o.error ≠ none := by
  cases ran with
  | failed | unjudged => exact Or.inr ⟨rfl, nofun⟩
  | finished _ judging same => exact Or.inl ⟨_, rfl, same ▸ (knows_of_verdict judging).verdict⟩

theorem PassTrail.length_le {reported defects : List Defect} {t : Text} {pass : Pass} {xs : List Search}
    (trail : s.PassTrail reported t defects b pass xs b') : xs.length ≤ pass.applied.length + 1 := by
  induction trail with
  | clean | unranked | unjudged | exhausted | fresh => simp
  | again _ _ _ _ _ ih => simpa using ih

theorem RoundTrail.length_le {t : Text} {r : Round} {xs : List Search} (trail : s.RoundTrail t b r xs b') :
    xs.length ≤ r.accepted.length + 1 := by
  cases trail with
  | idle => exact Nat.zero_le _
  | worked _ _ _ _ _ pass => exact pass.length_le

/-- Each iteration makes one search more, at most, than it accepts fixes. -/
theorem Trail.length_le {left : Nat} {c last : Course} {xs : List Search} {ending : Ending}
    (trail : s.Trail left c b xs last ending b') :
    xs.length + (appliedFixes c.steps).length ≤ (appliedFixes last.steps).length + left := by
  induction trail with
  | spent => simp
  | @ended left c b r xs _ _ _ round =>
    have here := round.length_le
    rw [c.appliedFixes_after, List.length_append]
    omega
  | @next left c b r xs _ ys _ _ _ round _ _ ih =>
    have here := round.length_le
    rw [c.appliedFixes_after, List.length_append] at ih
    rw [List.length_append]
    omega

/-- Whatever the oracle and the generators do, a session comes to its end: it makes no more searches than
there are defects in the verdict on the given text and iterations in its budget. Each step finds no more
defects than the one before left, and a session that did not fail ends with no more than its last step
left. -/
theorem searches_bounded (s : Session ω) (b : Bench ω) :
    Memo.Grows s.oracle b.memo (s.run b).2.memo ∧
    (s.searches b).1.length ≤ (s.run b).2.memo.count s.text + s.maxIterations.toNat ∧
    ((s.run b).1.steps.IsChain fun step next => next.defectsFound ≤ step.left) ∧
    ((s.run b).1.error = none → ∃ final, (s.run b).1.final = some final ∧
      ∀ step ∈ (s.run b).1.steps.getLast?, (final.length : Int) ≤ step.left) := by
  have leads := (s.run_ran b).leads
  obtain ⟨grows, given, replays⟩ := s.run_replays b
  refine ⟨grows, ?_, leads.chain, fun well => ?_⟩
  · obtain ⟨c, ending, b₁, trail, _, _, steps, _⟩ := s.run_trail b
    have count : (s.searches b).1.length ≤ _ := trail.length_le
    have fixes := replays.descent.count_add_le
    rw [given] at fixes
    rw [← steps] at count
    omega
  · rcases (s.run_ran b).final_known with ⟨final, judged, known⟩ | ⟨_, failed⟩
    · refine ⟨final, judged, ?_⟩
      rw [← Memo.count_eq known]
      exact leads.count_le_left
    · exact (failed well).elim

end Session

end Mender
