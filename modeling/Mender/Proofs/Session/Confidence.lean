import Mender.Proofs.Convergence
import Mender.Proofs.Session.Consistency
import Mender.Proofs.Session.Decline
import Mender.Proofs.Session.FirstFix

namespace Mender

/-- There are as many defects as steps, at least, if each step found some. -/
theorem length_le_total {steps : List HealingStep} (some : ∀ step ∈ steps, 1 ≤ step.defectsFound) :
    (steps.length : Int) ≤ Session.total HealingStep.defectsFound steps := by
  induction steps with
  | nil => exact le_rfl
  | cons step steps ih =>
    have first := some step List.mem_cons_self
    have rest := ih fun step member => some step (List.mem_cons_of_mem _ member)
    simp only [List.length_cons, Session.total]
    omega

namespace StepsLead

variable {m : Memo} {t u : Text} {steps : List HealingStep}

theorem fixesApplied_le (leads : StepsLead m t steps u) : ∀ step ∈ steps, step.fixesApplied ≤ step.defectsFound := by
  induction leads with
  | stay => exact nofun
  | step iteration known descent _ ih =>
    refine List.forall_mem_cons.mpr ⟨?_, ih⟩
    have fewer := descent.count_add_le
    simp only [HealingStep.record, Defect.length_prioritize, ← Memo.count_eq known]
    omega

/-- If every step accepted a fix, all steps after the first count a defect at least beyond those of the first text. -/
theorem count_add_length_le (leads : StepsLead m t steps u) (progress : ∀ step ∈ steps, 1 ≤ step.fixesApplied)
    (started : steps ≠ []) : (m.count t : Int) + steps.length ≤ Session.total HealingStep.defectsFound steps + 1 := by
  have found := leads.fixesApplied_le
  cases leads with
  | stay => exact absurd rfl started
  | @step t u v defects applied steps iteration known =>
    have rest := length_le_total fun step member =>
      (progress step (List.mem_cons_of_mem _ member)).trans (found step (List.mem_cons_of_mem _ member))
    simp only [List.length_cons, Session.total, HealingStep.record, Defect.length_prioritize, Memo.count_eq known]
    omega

end StepsLead

/-- There was one step, and it accepted a fix for each defect that it found. -/
def Outcome.HealedAtOnce (o : Outcome) : Prop := ∃ step, o.steps = [step] ∧ step.fixesApplied = step.defectsFound

/-- A clean outcome is as sure as its steps allow. Both in exact arithmetic and in binary64 it is fully sure only of a
text that was clean from the start by the verdicts of a memo, or that was healed at once. -/
structure Outcome.RightlySure (m : Memo) (o : Outcome) : Prop where
  fixes_le : o.totalFixes ≤ o.totalDefects
  clean_iff : m.find? o.given = some [] ↔ o.steps = []
  divides : o.steps ≠ [] → 0 < o.totalDefects
  atMost : o.steps ≠ [] → exactShare o.totalDefects o.totalFixes o.steps.length ≤ 1
  whole_iff : o.steps ≠ [] → (exactShare o.totalDefects o.totalFixes o.steps.length = 1 ↔ o.HealedAtOnce)
  sure_iff : exactConfidence o.totalDefects o.totalFixes o.steps.length = 1 ↔
    m.find? o.given = some [] ∨ o.HealedAtOnce
  unsure : ¬(m.find? o.given = some [] ∨ o.HealedAtOnce) →
    1 / 2 ≤ exactConfidence o.totalDefects o.totalFixes o.steps.length ∧
      exactConfidence o.totalDefects o.totalFixes o.steps.length < 1
  rounded : o.totalDefects ≤ twoTo 53 →
    (m.find? o.given = some [] ∨ o.HealedAtOnce → o.confidence.value = .ofFraction false 1 1) ∧
      (¬(m.find? o.given = some [] ∨ o.HealedAtOnce) →
        (Binary64.ofFraction false 1 2).le o.confidence.value ∧ o.confidence.value.lt (.ofFraction false 1 1))

section Outcome

variable {m : Memo} {o : Outcome}

theorem Outcome.healedAtOnce_iff (defects : o.totalDefects = Session.total HealingStep.defectsFound o.steps)
    (fixes : o.totalFixes = Session.total HealingStep.fixesApplied o.steps) :
    o.HealedAtOnce ↔ o.totalFixes = o.totalDefects ∧ (o.steps.length : Int) = 1 := by
  rw [defects, fixes, HealedAtOnce]
  constructor
  · rintro ⟨step, once, all⟩
    simp [once, all, Session.total]
  · rintro ⟨all, once⟩
    obtain ⟨step, single⟩ := List.length_eq_one_iff.mp (Int.ofNat.inj once)
    rw [single] at all
    exact ⟨step, single, by simpa [Session.total] using all⟩

theorem finishedConfidence_eq {steps : List HealingStep} {c : Confidence}
    (computed : healingConfidence true (Session.total HealingStep.defectsFound steps)
      (Session.total HealingStep.fixesApplied steps) steps.length = .ok c.value) :
    Session.finishedConfidence true steps = c := by
  have accepted : Confidence.ofBinary64? c.value = some c := dif_pos ⟨c.zero_le, c.le_one⟩
  rw [Session.finishedConfidence, computed, Except.toOption, Option.bind_some, accepted, Option.getD_some]

theorem Outcome.rightlySure_of_clean (clean : m.find? o.given = some []) (idle : o.steps = [])
    (defects : o.totalDefects = Session.total HealingStep.defectsFound o.steps)
    (fixes : o.totalFixes = Session.total HealingStep.fixesApplied o.steps)
    (confidence : o.confidence = Session.finishedConfidence true o.steps) : o.RightlySure m := by
  rw [idle] at defects fixes confidence
  have sure : exactConfidence o.totalDefects o.totalFixes o.steps.length = 1 := by
    rw [defects]
    exact if_pos rfl
  have certain : m.find? o.given = some [] ∨ o.HealedAtOnce := Or.inl clean
  exact {
    fixes_le := fixes.trans_le defects.ge
    clean_iff := iff_of_true clean idle
    divides := fun started => absurd idle started
    atMost := fun started => absurd idle started
    whole_iff := fun started => absurd idle started
    sure_iff := iff_of_true sure certain
    unsure := fun uncertain => absurd certain uncertain
    rounded := fun _ => ⟨fun _ => by rw [confidence]; decide, fun uncertain => absurd certain uncertain⟩ }

/-- A course of steps makes an outcome as sure as it should be. -/
theorem Outcome.rightlySure_of_steps (unclean : m.find? o.given ≠ some []) (started : o.steps ≠ [])
    (bound : o.totalFixes + o.steps.length ≤ o.totalDefects + 1) (nonneg : 0 ≤ o.totalFixes)
    (some : 0 < o.totalDefects)
    (defects : o.totalDefects = Session.total HealingStep.defectsFound o.steps)
    (fixes : o.totalFixes = Session.total HealingStep.fixesApplied o.steps)
    (confidence : o.confidence = Session.finishedConfidence true o.steps) : o.RightlySure m := by
  have length : (1 : Int) ≤ o.steps.length := mod_cast List.length_pos_iff.mpr started
  have atOnce := o.healedAtOnce_iff defects fixes
  have certain : (m.find? o.given = .some [] ∨ o.HealedAtOnce) ↔
      o.totalFixes = o.totalDefects ∧ (o.steps.length : Int) = 1 := by rw [or_iff_right unclean, atOnce]
  exact {
    fixes_le := by omega
    clean_iff := iff_of_false unclean started
    divides := fun _ => some
    atMost := fun _ => exactShare_le_one length bound some
    whole_iff := fun _ => (exactShare_eq_one_iff length bound some).trans atOnce.symm
    sure_iff := (exactConfidence_eq_one_iff length bound some).trans certain.symm
    unsure := fun uncertain => exactConfidence_mem length bound some (mt certain.mpr uncertain)
    rounded := by
      intro size
      obtain ⟨found, found_eq⟩ := Int.eq_ofNat_of_zero_le some.le
      obtain ⟨fixed, fixed_eq⟩ := Int.eq_ofNat_of_zero_le nonneg
      rw [certain]
      rw [found_eq] at defects bound some size ⊢
      rw [fixed_eq] at fixes bound ⊢
      obtain ⟨c, computed, value⟩ := healingConfidence_clean (Int.ofNat_le.mp length)
        (by omega : fixed + _ ≤ found + 1) (Int.natCast_pos.mp some) (Int.ofNat_le.mp size)
      rw [defects, fixes] at computed
      rw [confidence, finishedConfidence_eq computed, Int.natCast_inj, Nat.cast_eq_one]
      split_ifs at value with sure
      · exact ⟨fun _ => value, fun uncertain => absurd sure uncertain⟩
      · exact ⟨fun certain => absurd certain sure, fun _ => value⟩ }

/-- Steps that heal a text, and that accept a fix each, make the outcome as sure as it should be. -/
theorem Outcome.rightlySure (leads : StepsLead m o.given o.steps o.healed) (replays : o.Replays m)
    (progress : ∀ step ∈ o.steps, 1 ≤ step.fixesApplied) (known : m.find? o.healed = some [])
    (defects : o.totalDefects = Session.total HealingStep.defectsFound o.steps)
    (fixes : o.totalFixes = Session.total HealingStep.fixesApplied o.steps)
    (confidence : o.confidence = Session.finishedConfidence true o.steps) : o.RightlySure m := by
  by_cases idle : o.steps = []
  · have clean : m.find? o.given = some [] := by
      rw [idle] at leads
      generalize o.given = t, o.healed = u at leads known
      cases leads
      exact known
    exact rightlySure_of_clean clean idle defects fixes confidence
  have first : (1 : Int) ≤ m.count o.given := by
    obtain ⟨step, rest, steps⟩ := List.exists_cons_of_ne_nil idle
    have found := leads.defectsFound_head step (by rw [steps]; rfl)
    have member : step ∈ o.steps := by
      rw [steps]
      exact List.mem_cons_self
    exact (progress step member).trans ((leads.fixesApplied_le step member).trans found.le)
  have unclean : m.find? o.given ≠ some [] := by
    intro clean
    rw [Memo.count_eq clean] at first
    exact absurd first (by decide)
  have counted := leads.count_add_length_le progress idle
  have fewer := replays.descent.count_add_le
  refine rightlySure_of_steps unclean idle ?_ ?_ ?_ defects fixes confidence
  · rw [replays.total, defects]
    omega
  · rw [replays.total]
    exact Int.natCast_nonneg _
  · rw [defects]
    have started := List.length_pos_iff.mpr idle
    omega

end Outcome

namespace Session

variable {ω : Type} {s : Session ω} {m : Memo}

/-- On the way to a clean text every step has accepted a fix. -/
theorem Stops.progress_of_clean {c : Course} {reason : StopReason} (stops : s.Stops m c reason)
    (clean : s.Knows m c.current []) : ∀ step ∈ c.steps, step.appliedFixes ≠ [] := by
  cases stops with
  | spent underway | cancelled underway => exact underway.progress
  | clean => exact nofun
  | helpless _ _ known some => exact absurd (known.found_eq clean) some
  | healed underway _ accepted =>
    exact List.forall_mem_append.mpr ⟨underway.progress, List.forall_mem_singleton.mpr accepted⟩
  | exhausted _ _ _ known some => exact absurd (known.found_eq clean) some

theorem Delivers.rightlySure {o : Outcome} (delivers : s.Delivers m o)
    (leads : StepsLead m s.text o.steps o.healed) (success : o.success = true) : o.RightlySure m := by
  obtain ⟨given, replays⟩ := delivers.replays
  rw [← given] at leads
  cases delivers with
  | failed | unjudged => cases success
  | @finished c reason final concludes knows =>
    obtain rfl : final = [] := by simpa [outcome] using success
    have progress := concludes.stops.progress_of_clean knows
    refine Outcome.rightlySure leads replays (fun step member => ?_) knows.verdict rfl rfl rfl
    rw [(concludes.recorded step member).fixesApplied_eq]
    exact mod_cast List.length_pos_iff.mpr (progress step member)

/-- Whatever the oracle and the generators do, and for any number of iterations, a session that ends with success is as
sure of its result as it should be. -/
theorem success_rightlySure (s : Session ω) (b : Bench ω) :
    ((s.run b).1.success = true → (s.run b).1.RightlySure (s.run b).2.memo) ∧
      ∀ budget : Json, (s.runLoosely budget b).1.success = true →
        (s.runLoosely budget b).1.RightlySure (s.runLoosely budget b).2.memo := by
  have sure (s : Session ω) (success : (s.run b).1.success = true) : (s.run b).1.RightlySure (s.run b).2.memo :=
    (s.run_ran b).delivers.2.rightlySure (s.run_ran b).leads success
  refine ⟨sure s, fun budget success => ?_⟩
  rcases s.runLoosely_cases budget b with ⟨n, text, run⟩ | ⟨f, outcome, -⟩
  · rw [run] at success ⊢
    exact sure { s with budgetText := text, maxIterations := n } success
  · rw [outcome] at success
    cases success

/-- The session on "x" counts one defect more than it fixes, because the second stair has one of its own. So it is not
fully sure of what it has healed. -/
theorem staircase_rightlySure :
    let ended := (staircase "x").run (Bench.fresh 0)
    ended.1.success = true ∧ ended.1.totalFixes = 2 ∧ ended.1.totalDefects = 3 ∧ ended.1.steps.length = 2 ∧
      ended.1.RightlySure ended.2.memo ∧ ¬ended.1.HealedAtOnce ∧
      1 / 2 ≤ exactConfidence 3 2 2 ∧ exactConfidence 3 2 2 < 1 := by
  intro ended
  obtain ⟨success, -, defects, fixes, steps⟩ := staircase_ends
  have sure : ended.1.RightlySure ended.2.memo := (success_rightlySure (staircase "x") (Bench.fresh 0)).1 success
  have two : ended.1.steps.length = 2 := steps
  have slowly : ¬ended.1.HealedAtOnce := by
    rintro ⟨step, once, -⟩
    rw [once] at two
    cases two
  have unclean : ended.2.memo.find? ended.1.given ≠ some [] := by
    intro clean
    rw [sure.clean_iff.mp clean] at two
    cases two
  have unsure := sure.unsure (not_or.mpr ⟨unclean, slowly⟩)
  rw [defects, fixes, steps] at unsure
  exact ⟨success, fixes, defects, steps, sure, slowly, unsure⟩

end Session

end Mender
