import Mender.Application
import Mender.Proofs.Judgement
import Mender.Proofs.Ranking.Order
import Mender.Proofs.Session.Assessed

namespace Mender

variable {ω : Type}

/-- Tries fixes one after the other, and keeps a log of those that help. -/
def keepInOrder (o : Oracle ω) (limit : Limit) (current : Text) :
    List Fix → StateM (Bench ω) (Except OracleError (Text × List Fix))
  | [] => pure (.ok (current, []))
  | fix :: rest => do
    match fix.apply current with
    | .error e =>
      Bench.write .warning .session ("Failed to apply fix '" ++ fix.title ++ "': " ++ e.message)
      keepInOrder o limit current rest
    | .ok candidate =>
      match ← Bench.assess o limit current candidate with
      | .error e => pure (.error e)
      | .ok assessment =>
        if assessment.improved then
          Bench.write .debug .session ("Applied fix '" ++ fix.title ++ "'")
          let result ← keepInOrder o limit candidate rest
          pure (result.map fun (healed, kept) => (healed, fix :: kept))
        else
          Bench.write .debug .session ("Skipped fix '" ++ fix.title ++ "' (no improvement)")
          keepInOrder o limit current rest

/-- The text after the fixes that help, and these fixes. -/
def keepFixes (o : Oracle ω) (limit : Limit) (t : Text) (fixes : List Fix) :
    StateM (Bench ω) (Except ApplyError (Text × List Fix)) := do
  match rankFixes? fixes with
  | .error f => pure (.error (.ranking f))
  | .ok ranked =>
    match ← keepInOrder o limit t ranked with
    | .error e => pure (.error (.oracle e))
    | .ok result => pure (.ok result)

section Log

variable {o : Oracle ω} {limit : Limit}

/-- The log changes nothing about the fixes that are tried. -/
theorem applyInOrder_eq_keepInOrder (t : Text) (fixes : List Fix) (b : Bench ω) :
    applyInOrder o limit t fixes b =
      ((keepInOrder o limit t fixes b).1.map Prod.fst, (keepInOrder o limit t fixes b).2) := by
  induction fixes generalizing t b with
  | nil => rfl
  | cons fix rest ih =>
    obtain ⟨result, b', run⟩ : ∃ result b', keepInOrder o limit t (fix :: rest) b = (result, b') := ⟨_, _, rfl⟩
    rw [run]
    unfold keepInOrder at run
    unfold applyInOrder
    cases applied : fix.apply t with
    | error e =>
      simp only [applied] at run
      obtain ⟨_, b₁, noted, run⟩ := StateM.bind_eq_iff.mp run
      refine StateM.bind_eq_iff.mpr ⟨_, b₁, noted, ?_⟩
      rw [ih, run]
    | ok candidate =>
      simp only [applied] at run
      obtain ⟨assessed, b₁, assessing, run⟩ := StateM.bind_eq_iff.mp run
      refine StateM.bind_eq_iff.mpr ⟨assessed, b₁, assessing, ?_⟩
      cases assessed with
      | error e =>
        cases run
        rfl
      | ok assessment =>
        by_cases improved : assessment.improved
        · simp only [if_pos improved] at run ⊢
          obtain ⟨_, b₂, noted, run⟩ := StateM.bind_eq_iff.mp run
          obtain ⟨later, b₃, tried, run⟩ := StateM.bind_eq_iff.mp run
          refine StateM.bind_eq_iff.mpr ⟨_, b₂, noted, ?_⟩
          cases run
          rw [ih, tried]
          cases later <;> rfl
        · simp only [if_neg improved] at run ⊢
          obtain ⟨_, b₂, noted, run⟩ := StateM.bind_eq_iff.mp run
          refine StateM.bind_eq_iff.mpr ⟨_, b₂, noted, ?_⟩
          rw [ih, run]

/-- Applying keeps the fixes and forgets the texts between them. -/
theorem applyFixes_eq_keepFixes (t : Text) (fixes : List Fix) (b : Bench ω) :
    applyFixes o limit t fixes b =
      ((keepFixes o limit t fixes b).1.map Prod.fst, (keepFixes o limit t fixes b).2) := by
  obtain ⟨result, b', run⟩ : ∃ result b', keepFixes o limit t fixes b = (result, b') := ⟨_, _, rfl⟩
  rw [run]
  unfold keepFixes at run
  unfold applyFixes
  cases ranking : rankFixes? fixes with
  | error f =>
    simp only [ranking] at run
    cases run
    rfl
  | ok ranked =>
    simp only [ranking] at run
    obtain ⟨tried, b₁, trying, run⟩ := StateM.bind_eq_iff.mp run
    have same : applyInOrder o limit t ranked b = _ := applyInOrder_eq_keepInOrder t ranked b
    rw [trying] at same
    refine StateM.bind_eq_iff.mpr ⟨_, b₁, same, ?_⟩
    cases tried <;> cases run <;> rfl

end Log

/-- By what an oracle finds in the texts, the fix leaves fewer defects in a text. -/
def Fix.helps (finds : Text → List Defect) (t : Text) (f : Fix) : Bool :=
  match f.apply t with
  | .error _ => false
  | .ok u => (finds u).length < (finds t).length

/-- The text after the fixes that help one after the other, with these fixes. -/
def sift (finds : Text → List Defect) (t : Text) : List Fix → Text × List Fix
  | [] => (t, [])
  | f :: rest =>
    match f.apply t with
    | .error _ => sift finds t rest
    | .ok u =>
      if (finds u).length < (finds t).length then ((sift finds u rest).1, f :: (sift finds u rest).2)
      else sift finds t rest

/-- The text after the fixes that help one after the other, with these fixes, where some texts cannot be judged. -/
def siftJudged (judge : Text → Except OracleError (List Defect)) (t : Text) :
    List Fix → Except OracleError (Text × List Fix)
  | [] => .ok (t, [])
  | f :: rest =>
    match f.apply t with
    | .error _ => siftJudged judge t rest
    | .ok u =>
      match judge t with
      | .error e => .error e
      | .ok old =>
        match judge u with
        | .error e => .error e
        | .ok new =>
          if new.length < old.length then
            (siftJudged judge u rest).map fun (healed, kept) => (healed, f :: kept)
          else siftJudged judge t rest

section Sift

variable {finds : Text → List Defect} {t : Text} {fixes : List Fix}

theorem head?_sift (finds : Text → List Defect) (t : Text) (fixes : List Fix) :
    (sift finds t fixes).2.head? = fixes.find? (Fix.helps finds t) := by
  induction fixes with
  | nil => rfl
  | cons f fixes ih =>
    rw [sift, List.find?_cons, Fix.helps]
    cases f.apply t with
    | error e => exact ih
    | ok u => by_cases fewer : (finds u).length < (finds t).length <;> simp [fewer, ih]

/-- Every fix that is kept takes at least one defect away. -/
theorem count_sift_le (finds : Text → List Defect) (t : Text) (fixes : List Fix) :
    (finds (sift finds t fixes).1).length + (sift finds t fixes).2.length ≤ (finds t).length := by
  induction fixes generalizing t with
  | nil => exact Nat.le_refl _
  | cons f fixes ih =>
    rw [sift]
    cases f.apply t with
    | error e => exact ih t
    | ok u =>
      by_cases fewer : (finds u).length < (finds t).length
      · have later := ih u
        simp only [if_pos fewer, List.length_cons]
        omega
      · simp only [if_neg fewer]
        exact ih t

theorem sift_of_none (none : (sift finds t fixes).2 = []) : (sift finds t fixes).1 = t := by
  induction fixes with
  | nil => rfl
  | cons f fixes ih =>
    rw [sift] at none ⊢
    cases applied : f.apply t with
    | error e =>
      simp only [applied] at none
      exact ih none
    | ok u =>
      simp only [applied] at none
      by_cases fewer : (finds u).length < (finds t).length
      · rw [if_pos fewer] at none
        cases none
      · simp only [if_neg fewer] at none ⊢
        exact ih none

theorem sift_eq_self_iff : (sift finds t fixes).1 = t ↔ (sift finds t fixes).2 = [] := by
  refine ⟨fun same => ?_, sift_of_none⟩
  have bound := count_sift_le finds t fixes
  rw [same] at bound
  exact List.length_eq_zero_iff.mp (by omega)

end Sift

theorem siftJudged_of_ok {judge : Text → Except OracleError (List Defect)} {finds : Text → List Defect}
    (judges : ∀ t, judge t = .ok (finds t)) (t : Text) (fixes : List Fix) :
    siftJudged judge t fixes = .ok (sift finds t fixes) := by
  induction fixes generalizing t with
  | nil => rfl
  | cons f fixes ih =>
    rw [siftJudged, sift]
    cases f.apply t with
    | error e => exact ih t
    | ok u =>
      simp only [judges, ih, Except.map]
      by_cases fewer : (finds u).length < (finds t).length <;> simp only [fewer, if_true, if_false]

section Judged

open Bench

variable {o : Oracle ω} {limit : Limit} {answers : Answers} {finds : Text → List Defect}

theorem Answers.judgement_of_keepable (keepable : limit.faultUnlessBlank? = none) (t : Text) :
    Answers.judgement (fun t => .ok (finds t)) limit t = .ok (finds t) :=
  judgement_eq_ok_iff.mpr ⟨keepable, rfl⟩

/-- Both texts are judged, the old one first; an old text that cannot be judged hides the new one.
-/
theorem assess_yields (follows : o.Follows answers) (t u : Text) :
    Yields o answers (assess o limit t u)
      (match answers.judgement limit t with
      | .error e => .error e
      | .ok old => (answers.judgement limit u).map (Assessment.between old)) := by
  refine .bind (verdict_yields follows limit t) ?_
  cases answers.judgement limit t with
  | error e => exact .pure _
  | ok old =>
    refine .bind (verdict_yields follows limit u) ?_
    cases answers.judgement limit u <;> exact .pure _

/-- Where the oracle goes by the text, the fixes that help are kept until a text cannot be judged. -/
theorem keepInOrder_yields (follows : o.Follows answers) (t : Text) (fixes : List Fix) :
    Yields o answers (keepInOrder o limit t fixes) (siftJudged (answers.judgement limit) t fixes) := by
  induction fixes generalizing t with
  | nil => exact .pure _
  | cons f fixes ih =>
    rw [keepInOrder, siftJudged]
    cases f.apply t with
    | error e => exact .bind (.write _ _ _) (ih t)
    | ok u =>
      refine .bind (assess_yields follows t u) ?_
      dsimp only
      cases answers.judgement limit t with
      | error e => exact .pure _
      | ok old =>
        dsimp only
        cases answers.judgement limit u with
        | error e => exact .pure _
        | ok new =>
          by_cases fewer : new.length < old.length
          · simp only [Except.map, Assessment.between, fewer, decide_true, if_true]
            exact .bind (.write _ _ _) (.bind (ih u) (.pure _))
          · simp only [Except.map, Assessment.between, fewer, decide_false, if_false]
            exact .bind (.write _ _ _) (ih t)

/-- Fixes that can be written out are ranked without a fault, so only the judgements decide how the
walk ends. -/
theorem keepFixes_yields (follows : o.Follows answers) {fixes : List Fix} (writable : ∀ f ∈ fixes, f.Writable)
    (t : Text) : Yields o answers (keepFixes o limit t fixes)
      ((siftJudged (answers.judgement limit) t (rankFixes fixes)).mapError ApplyError.oracle) := by
  rw [keepFixes, rankFixes?_of_writable writable]
  refine .bind (keepInOrder_yields follows t (rankFixes fixes)) ?_
  cases siftJudged (answers.judgement limit) t (rankFixes fixes) <;> exact .pure _

/-- What ranked fixes come to: they are not ranked anew, and those that help are kept. -/
theorem keepFixes_rankFixes (follows : o.Follows fun t => .ok (finds t))
    (keepable : limit.faultUnlessBlank? = none) {candidates : List Fix}
    (writable : ∀ f ∈ candidates, f.Writable) (t : Text) (w : ω) :
    (keepFixes o limit t (rankFixes candidates) (Bench.fresh w)).1 =
      .ok (sift finds t (rankFixes candidates)) := by
  have inRanking : ∀ f ∈ rankFixes candidates, f.Writable := fun f member =>
    writable f (mem_of_mem_rankFixes member)
  rw [(keepFixes_yields follows inRanking t).result .empty, rankFixes_rankFixes,
    siftJudged_of_ok (Answers.judgement_of_keepable keepable)]
  rfl

end Judged

end Mender
