import Mender.Proofs.Session.Round

namespace Mender

variable {ω : Type}

/-- The assessment of a change that leaves other defects. -/
def Assessment.between (old new : List Defect) : Assessment where
  improved := new.length < old.length
  delta := old.length - new.length
  before := old.length
  after := new.length
  remaining := new

namespace Bench

variable {o : Oracle ω} {limit : Limit} {t u : Text} {found : List Defect} {b b' : Bench ω}

theorem verdict_of_known (keepable : limit.faultUnlessBlank? = none) (known : b.memo.find? t = some found) :
    verdict o limit t b = (.ok found, (revisit limit b).2) := by
  simp only [verdict, keepable]
  refine StateM.bind_eq_iff.mpr ⟨b, b, rfl, ?_⟩
  simp only [known]
  rfl

/-- For an assessment of a text with a verdict, this verdict is only looked up. -/
theorem assess_of_known (keepable : limit.faultUnlessBlank? = none) (known : b.memo.find? t = some found)
    {judged : Except OracleError (List Defect)} (judging : verdict o limit u (revisit limit b).2 = (judged, b')) :
    assess o limit t u b = (judged.map (Assessment.between found), b') := by
  refine StateM.bind_eq_iff.mpr ⟨_, _, verdict_of_known keepable known, ?_⟩
  refine StateM.bind_eq_iff.mpr ⟨judged, b', judging, ?_⟩
  cases judged <;> rfl

end Bench

/-- The fix that a walk accepted, if any, with the text and the defects that it left. -/
def Walk.result {count : Nat} : Walk count → Except OracleError (Option (Fix × Text × List Defect))
  | accepted fix healed after _ => .ok (some (fix, healed, after))
  | exhausted => .ok none
  | failed e => .error e

namespace Session

/-- Walks over ranked fixes as `firstImproving` does, with an assessment of every fix that changes the text. -/
def firstAssessed (s : Session ω) (current : Text) :
    List Fix → StateM (Bench ω) (Except OracleError (Option (Fix × Text × List Defect)))
  | [] => pure (.ok none)
  | fix :: rest => do
    match fix.apply current with
    | .error e =>
      noteRejected fix e.message
      firstAssessed s current rest
    | .ok candidate =>
      if candidate = current then
        noteRejected fix "no change"
        firstAssessed s current rest
      else
        match ← Bench.assess s.oracle s.oracleLimit current candidate with
        | .error e => pure (.error e)
        | .ok assessment =>
          if assessment.improved then pure (.ok (some (fix, candidate, assessment.remaining)))
          else
            noteRejected fix (countChange assessment.before.toNat assessment.after.toNat)
            firstAssessed s current rest

variable {s : Session ω} {t : Text} {found : List Defect} {b b' : Bench ω}

/-- A walk that starts on a text with its verdict compares the verdicts before and after each fix. -/
theorem firstAssessed_eq_result {fixes : List Fix} {walk : Walk found.length} (knows : s.Knows b.memo t found)
    (run : s.firstImproving t found.length fixes b = (walk, b')) :
    s.firstAssessed t fixes b = (walk.result, b') := by
  induction fixes generalizing b with
  | nil =>
    cases run
    rfl
  | cons fix rest ih =>
    unfold firstImproving at run
    unfold firstAssessed
    cases applied : fix.apply t with
    | error e =>
      simp only [applied] at run
      exact ih knows run
    | ok candidate =>
      simp only [applied] at run
      by_cases same : candidate = t
      · rw [if_pos same] at run
        simp only [if_pos same]
        exact ih knows run
      · rw [if_neg same] at run
        simp only [if_neg same]
        obtain ⟨_, _, revisited, run⟩ := StateM.bind_eq_iff.mp run
        cases revisited
        obtain ⟨judged, b₁, judging, run⟩ := StateM.bind_eq_iff.mp run
        have grows := verdict_grows judging
        have assessed := Bench.assess_of_known knows.keepable knows.verdict judging
        refine StateM.bind_eq_iff.mpr ⟨_, _, assessed, ?_⟩
        cases judged with
        | error e =>
          cases run
          rfl
        | ok after =>
          simp only at run
          by_cases fewer : after.length < found.length
          · rw [dif_pos fewer] at run
            cases run
            simp only [Except.map, Assessment.between, decide_eq_true fewer]
            rfl
          · rw [dif_neg fewer] at run
            simp only [Except.map, Assessment.between, decide_eq_false fewer]
            exact ih (knows.mono grows) run

end Session

end Mender
