import Mender.Proofs.Coupling
import Mender.Proofs.Session.Unnamed

namespace Mender

variable {ω ω' : Type} {answers : Answers} {worlds : ω → ω' → Prop} {s : Session ω} {s' : Session ω'}

/-- What two sessions have in common that go the same way on the same text. -/
structure Session.Coupled (answers : Answers) (worlds : ω → ω' → Prop) (s : Session ω) (s' : Session ω') :
    Prop where
  follows : s.oracle.Follows answers
  follows' : s'.oracle.Follows answers
  limit : s'.oracleLimit = s.oracleLimit
  keeps : ∀ w', s.oracle.Keeps fun w => worlds w w'
  keeps' : ∀ w, s'.oracle.Keeps fun w' => worlds w w'
  cancelled : ∀ w w', worlds w w' → s.cancelled w = s'.cancelled w'
  ranking : ∀ w w', worlds w w' →
    (s.atRanking w).1 = (s'.atRanking w').1 ∧ worlds (s.atRanking w).2 (s'.atRanking w').2
  candidates : ∀ t found, answers.judgement s.oracleLimit t = .ok found →
    Couples (fun d d' => worlds d.world d'.world) (Alike (answers.judgement s.oracleLimit) t found.length)
      (Generator.fixesForAll s.generators s.generatorLimit t (Defect.prioritize found))
      (Generator.fixesForAll s'.generators s'.generatorLimit t (Defect.prioritize found))

namespace Session.Coupled

/-- Both sessions get the verdict that the answers decide, looked up or asked for. -/
theorem verdict (coupled : Session.Coupled answers worlds s s') (t : Text) :
    Couples (Abreast answers worlds)
      (fun r r' => r = answers.judgement s.oracleLimit t ∧ r' = answers.judgement s.oracleLimit t)
      (s.verdict t) (s'.verdict t) := by
  have first := Bench.verdict_yields coupled.follows s.oracleLimit t
  have second := Bench.verdict_yields coupled.follows' s'.oracleLimit t
  rw [coupled.limit] at second
  unfold Session.verdict
  rw [coupled.limit]
  exact first.couples second coupled.keeps coupled.keeps' ⟨rfl, rfl⟩

theorem say (coupled : Session.Coupled answers worlds s s') (level level' : Level) (message message' : Text) :
    Couples (Abreast answers worlds) (fun _ _ => True) (s.say level message) (s'.say level' message') :=
  (say_yields level message).couples (say_yields level' message') coupled.keeps coupled.keeps' trivial

theorem noteStop (coupled : Session.Coupled answers worlds s s') (r r' : Round) (ending : Ending) :
    Couples (Abreast answers worlds) (fun _ _ => True) (s.noteStop r ending) (s'.noteStop r' ending) := by
  have quiet {ω : Type} (s : Session ω) (r : Round) :
      Bench.Yields s.oracle answers (s.noteStop r ending) () := by
    unfold Session.noteStop
    split
    next => exact say_yields _ _
    next => exact .pure _
  exact (quiet s r).couples (quiet s' r') coupled.keeps coupled.keeps' trivial

/-- Fixes are ranked so that walks over them end alike. -/
theorem ranked (coupled : Session.Coupled answers worlds s s') {t : Text} {count : Nat} {found found' : List Fix}
    (alike : Alike (answers.judgement s.oracleLimit) t count found found') :
    Couples (Abreast answers worlds)
      (fun r r' =>
        (r.map (walkEnd (answers.judgement s.oracleLimit) t count)).map Walk.unnamed =
          (r'.map (walkEnd (answers.judgement s.oracleLimit) t count)).map Walk.unnamed)
      (s.ranked found) (s'.ranked found') := by
  have turns : Couples (Abreast answers worlds) Eq (Bench.atDesk (Desk.turn s.atRanking))
      (Bench.atDesk (Desk.turn s'.atRanking)) :=
    Couples.atDesk fun d d' same => coupled.ranking _ _ same
  refine turns.bind fun fault fault' same => ?_
  subst same
  cases fault with
  | some f => exact .pure rfl
  | none => exact .pure alike.choose_eq

/-- Walks over fixes that differ in their names alone end alike. -/
theorem firstImproving (coupled : Session.Coupled answers worlds s s') (t : Text) (count : Nat)
    (fixes fixes' : List Fix)
    (same : (walkEnd (answers.judgement s.oracleLimit) t count fixes).unnamed =
      (walkEnd (answers.judgement s.oracleLimit) t count fixes').unnamed) :
    Couples (Abreast answers worlds)
      (fun walk walk' => walk.unnamed = walk'.unnamed ∧
        walk = walkEnd (answers.judgement s.oracleLimit) t count fixes)
      (s.firstImproving t count fixes) (s'.firstImproving t count fixes') := by
  have first := firstImproving_yields coupled.follows t count fixes
  have second := firstImproving_yields coupled.follows' t count fixes'
  rw [coupled.limit] at second
  exact first.couples second coupled.keeps coupled.keeps' ⟨same, rfl⟩

theorem acceptFixes (coupled : Session.Coupled answers worlds s s') (iteration iteration' : Nat)
    (reported : List Defect) (t : Text) (found : List Defect)
    (judged : answers.judgement s.oracleLimit t = .ok found)
    (applied applied' : List Fix) (same : applied.map Fix.unnamed = applied'.map Fix.unnamed) :
    Couples (Abreast answers worlds) (fun pass pass' => pass.unnamed = pass'.unnamed)
      (s.acceptFixes iteration reported t (Defect.prioritize found) applied)
      (s'.acceptFixes iteration' reported t (Defect.prioritize found) applied') := by
  -- By induction on the number of defects, which every accepted fix lowers.
  induction size : found.length using Nat.strongRecOn generalizing t found applied applied' with
  | _ n ih =>
    unfold Session.acceptFixes
    by_cases clean : (Defect.prioritize found).isEmpty
    · rw [if_pos clean, if_pos clean]
      exact .pure (by simp [Pass.unnamed, same])
    rw [if_neg clean, if_neg clean]
    refine (Couples.atDesk (coupled.candidates t found judged)).bind fun candidates candidates' alike => ?_
    refine (coupled.ranked alike).bind fun ranked ranked' ends => ?_
    rw [← Defect.length_prioritize found] at ends
    cases ranked with
    | error f =>
      cases ranked' with
      | ok => cases ends
      | error f' =>
        cases ends
        exact .pure (by simp [Pass.unnamed, same])
    | ok fixes =>
      cases ranked' with
      | error => cases ends
      | ok fixes' =>
        have ends := Except.ok.inj ends
        refine (coupled.firstImproving t _ fixes fixes' ends).bind ?_
        rintro walk walk' ⟨alike, ended⟩
        cases walk with
        | exhausted =>
          cases Walk.eq_of_unnamed_exhausted alike.symm
          exact .pure (by simp [Pass.unnamed, same])
        | failed e =>
          cases Walk.eq_of_unnamed_failed alike.symm
          exact .pure (by simp [Pass.unnamed, same])
        | accepted fix healed after fewer =>
          obtain ⟨fix', rfl, names⟩ := Walk.eq_of_unnamed_accepted alike.symm
          refine (coupled.say _ _ _ _).bind fun _ _ _ => ?_
          have more : (applied ++ [fix]).map Fix.unnamed = (applied' ++ [fix']).map Fix.unnamed := by
            rw [List.map_append, List.map_append, same, List.map_singleton, List.map_singleton, names]
          split
          next =>
            refine (coupled.say _ _ _ _).bind fun _ _ _ => .pure ?_
            simp only [Pass.unnamed, more]
          next =>
            have judgedHealed := judged_of_walkEnd ended.symm
            rw [Defect.length_prioritize] at fewer
            exact ih after.length (size ▸ fewer) healed after judgedHealed _ _ more rfl

/-- One round of each: the same texts, steps and ending but for names. -/
theorem round (coupled : Session.Coupled answers worlds s s') (iteration iteration' : Nat) (t : Text) :
    Couples (Abreast answers worlds) (fun r r' => r.unnamed = r'.unnamed) (s.round iteration t)
      (s'.round iteration' t) := by
  unfold Session.round
  have looks : Couples (Abreast answers worlds)
      (fun b b' => s.cancelled b.desk.world = s'.cancelled b'.desk.world) get get :=
    fun b b' abreast => ⟨coupled.cancelled _ _ abreast.world, abreast⟩
  refine looks.bind fun b b' same => ?_
  rw [same]
  split
  next => exact (coupled.say _ _ _ _).bind fun _ _ _ => .pure rfl
  next =>
    refine (coupled.verdict t).bind ?_
    rintro judged judged' ⟨verdict, verdict'⟩
    cases verdict.trans verdict'.symm
    cases judged with
    | error e => exact .pure rfl
    | ok found =>
      cases found with
      | nil => exact (coupled.say _ _ _ _).bind fun _ _ _ => .pure rfl
      | cons d more =>
        refine (coupled.say _ _ _ _).bind fun _ _ _ => ?_
        refine (coupled.acceptFixes _ _ _ t _ verdict.symm [] [] rfl).bind fun pass pass' alike => .pure ?_
        simp only [Round.unnamed, alike]

/-- Whole loops agree but for names, by induction on the rounds left. -/
theorem iterate (coupled : Session.Coupled answers worlds s s') (budget : s.maxIterations = s'.maxIterations)
    (left : Nat) (c c' : Course) (same : c.unnamed = c'.unnamed) :
    Couples (Abreast answers worlds) (fun p p' => p.1.unnamed = p'.1.unnamed ∧ p.2 = p'.2)
      (s.iterate left c) (s'.iterate left c') := by
  induction left generalizing c c' with
  | zero => exact .pure ⟨same, rfl⟩
  | succ left ih =>
    unfold Session.iterate
    rw [(Course.unnamed_eq_iff.mp same).1]
    refine (coupled.round _ _ c'.current).bind fun r r' alike => ?_
    have courses : (c.after r).unnamed = (c'.after r').unnamed := by
      rw [Course.unnamed_after, Course.unnamed_after, same, alike]
    have endings : r.ending? s.maxIterations (c.after r).steps =
        r'.ending? s'.maxIterations (c'.after r').steps := by
      rw [← r.ending?_unnamed, ← r'.ending?_unnamed, alike, budget]
      exact congrArg (fun c : Course => r'.unnamed.ending? s'.maxIterations c.steps) courses
    rw [endings]
    split
    next ending _ => exact (coupled.noteStop r r' ending).bind fun _ _ _ => .pure ⟨courses, rfl⟩
    next => exact ih _ _ courses

end Session.Coupled

theorem Session.outcome_anonymous {c : Course} {c' : Course} (text : s.text = s'.text)
    (same : c.unnamed = c'.unnamed) (final : Option (List Defect)) (reason : StopReason)
    (confidence : Confidence) (error : Option Text) :
    (s.outcome c final reason confidence error).anonymous =
      (s'.outcome c' final reason confidence error).anonymous := by
  obtain ⟨current, iterations, steps⟩ := Course.unnamed_eq_iff.mp same
  have defects : total HealingStep.defectsFound c.steps = total HealingStep.defectsFound c'.steps := by
    rw [← total_unnamed (fun _ => rfl), steps, total_unnamed fun _ => rfl]
  have fixes : total HealingStep.fixesApplied c.steps = total HealingStep.fixesApplied c'.steps := by
    rw [← total_unnamed (fun _ => rfl), steps, total_unnamed fun _ => rfl]
  simp only [outcome, Outcome.anonymous, text, steps, current, iterations, defects, fixes]

theorem Session.finishedConfidence_unnamed (clean : Bool) (steps : List HealingStep) :
    finishedConfidence clean (steps.map HealingStep.unnamed) = finishedConfidence clean steps := by
  unfold finishedConfidence
  rw [total_unnamed fun _ => rfl, total_unnamed fun _ => rfl, List.length_map]

/-- Coupled sessions that are given the same text and the same number of iterations have the same outcome,
but for the names of the sessions and of the fixes. -/
theorem Session.Coupled.run (coupled : Session.Coupled answers worlds s s') (text : s.text = s'.text)
    (budget : s.maxIterations = s'.maxIterations) (manual : s.manual = s'.manual) :
    Couples (Abreast answers worlds) (fun o o' => o.anonymous = o'.anonymous) s.run s'.run := by
  unfold Session.run Session.announce
  refine (coupled.say _ _ _ _).bind fun _ _ _ => ?_
  rw [← budget]
  refine (coupled.iterate budget _ _ _ (by rw [text])).bind ?_
  rintro ⟨c, ending⟩ ⟨c', ending'⟩ ⟨same, ends⟩
  cases ends
  obtain ⟨current, _, steps⟩ := Course.unnamed_eq_iff.mp same
  have fails : ∀ f : Failure, Couples (Abreast answers worlds) (fun o o' => o.anonymous = o'.anonymous)
      (s.fail c f) (s'.fail c' f) := by
    intro f
    unfold Session.fail
    rw [manual]
    exact (coupled.say _ _ _ _).bind fun _ _ _ => .pure (outcome_anonymous text same _ _ _ _)
  cases ending with
  | failed f => exact fails f
  | stopped reason =>
    have verdicts := coupled.verdict c.current
    rw [show s'.verdict c.current = s'.verdict c'.current by rw [current]] at verdicts
    refine verdicts.bind ?_
    rintro judged judged' ⟨verdict, verdict'⟩
    cases verdict.trans verdict'.symm
    cases judged with
    | error e => exact fails (.oracle e)
    | ok final =>
      unfold Session.finish
      refine (coupled.say _ _ _ _).bind fun _ _ _ => .pure ?_
      rw [← finishedConfidence_unnamed, steps, finishedConfidence_unnamed]
      exact outcome_anonymous text same _ _ _ _

end Mender
