import Mender.Proofs.Session.Acceptance

namespace Mender

theorem Defect.prioritize_eq_nil_iff {defects : List Defect} :
    Defect.prioritize defects = [] ↔ defects = [] := by
  rw [← List.length_eq_zero_iff, Defect.length_prioritize, List.length_eq_zero_iff]

/-- A look-up of the text gives these defects from now on: its verdict is in the memo, and the limit
of the session can be kept. -/
structure Session.Knows {ω : Type} (s : Session ω) (m : Memo) (t : Text) (found : List Defect) :
    Prop where
  keepable : s.oracleLimit.faultUnlessBlank? = none
  verdict : m.find? t = some found

/-- What an iteration reports about the text it started on is so by a memo. -/
def Round.Sound {ω : Type} (s : Session ω) (m : Memo) (t : Text) : Round → Prop
  | cancelled | unjudged _ => True
  | clean => s.Knows m t []
  | worked reported pass =>
    ∃ found, s.Knows m t found ∧ found ≠ [] ∧ reported = Defect.prioritize found ∧ pass.Sound m t

theorem Pass.Sound.mono {ω : Type} {o : Oracle ω} {m later : Memo} {t : Text} {pass : Pass}
    (sound : pass.Sound m t) (grows : Memo.Grows o m later) : pass.Sound later t := by
  obtain ⟨found, known, remaining⟩ := sound.judged
  exact ⟨sound.descent.mono grows, found, grows.kept known, remaining⟩

namespace Session

variable {ω : Type} {s : Session ω} {m later : Memo} {t : Text} {b b' : Bench ω}

theorem Knows.mono {found : List Defect} (knows : s.Knows m t found)
    (grows : Memo.Grows s.oracle m later) : s.Knows later t found :=
  ⟨knows.keepable, grows.kept knows.verdict⟩

theorem knows_of_verdict {found : List Defect} (run : s.verdict t b = (.ok found, b')) :
    s.Knows b'.memo t found := by
  obtain ⟨keepable, known⟩ := (Bench.verdict_looked run).known
  exact ⟨keepable, known⟩

/-- The memo holds one verdict for a text. -/
theorem Knows.found_eq {found other : List Defect} (knows : s.Knows m t found)
    (same : s.Knows m t other) : found = other :=
  Option.some.inj (knows.verdict.symm.trans same.verdict)

/-- An iteration as it runs. -/
inductive Iterated (s : Session ω) (t : Text) (b : Bench ω) : Round → Bench ω → Prop
  | cancelled {last} : s.cancelled b.desk.world = true → last.memo = b.memo →
      Iterated s t b .cancelled last
  | unjudged {e last} : s.cancelled b.desk.world = false → s.verdict t b = (.error e, last) →
      Iterated s t b (.unjudged e) last
  | clean {b₁ last} : s.cancelled b.desk.world = false → s.verdict t b = (.ok [], b₁) →
      last.memo = b₁.memo → Iterated s t b .clean last
  | worked {found b₁ b₂ pass last} : s.cancelled b.desk.world = false →
      s.verdict t b = (.ok found, b₁) → found ≠ [] → b₂.memo = b₁.memo →
      s.Accepting (Defect.prioritize found) t (Defect.prioritize found) b₂ pass last →
      Iterated s t b (.worked (Defect.prioritize found) pass) last

/-- A round of the program is a round of the relation. -/
theorem round_iterated {iteration : Nat} {r : Round} (run : s.round iteration t b = (r, b')) :
    s.Iterated t b r b' := by
  unfold round at run
  obtain ⟨_, _, got, run⟩ := StateM.bind_eq_iff.mp run
  cases got
  cases stop : s.cancelled b.desk.world with
  | true =>
    rw [if_pos stop] at run
    obtain ⟨_, _, noted, run⟩ := StateM.bind_eq_iff.mp run
    cases noted
    cases run
    exact .cancelled stop rfl
  | false =>
    rw [if_neg (by simp [stop])] at run
    obtain ⟨judged, b₁, judging, run⟩ := StateM.bind_eq_iff.mp run
    cases judged with
    | error e =>
      cases run
      exact .unjudged stop judging
    | ok found =>
      cases found with
      | nil =>
        obtain ⟨_, _, noted, run⟩ := StateM.bind_eq_iff.mp run
        cases noted
        cases run
        exact .clean stop judging rfl
      | cons d more =>
        obtain ⟨_, b₂, noted, run⟩ := StateM.bind_eq_iff.mp run
        obtain ⟨pass, b₃, accepted, run⟩ := StateM.bind_eq_iff.mp run
        have same : b₂.memo = b₁.memo := by
          cases noted
          rfl
        obtain ⟨fixes, applied, accepting⟩ := acceptFixes_accepting accepted
        cases run
        rw [List.nil_append] at applied
        rw [← applied] at accepting
        exact .worked stop judging (by simp) same accepting

namespace Iterated

variable {r : Round}

theorem grows (iterated : s.Iterated t b r b') : Memo.Grows s.oracle b.memo b'.memo := by
  cases iterated with
  | cancelled _ same => exact .of_eq same
  | unjudged _ judging => exact verdict_grows judging
  | clean _ judging same => exact same ▸ verdict_grows judging
  | worked _ judging _ same accepting =>
    exact (verdict_grows judging).trans (same ▸ accepting.grows)

theorem sound (iterated : s.Iterated t b r b') : r.Sound s b'.memo t := by
  cases iterated with
  | cancelled | unjudged => trivial
  | clean _ judging same => exact same ▸ knows_of_verdict judging
  | @worked found b₁ b₂ pass _ _ judging some same accepting =>
    have knows := same ▸ knows_of_verdict judging
    exact ⟨found, knows.mono accepting.grows, some, rfl, accepting.sound knows.verdict rfl⟩

end Iterated

end Session

namespace Round

theorem Sound.mono {ω : Type} {s : Session ω} {m later : Memo} {t : Text} {r : Round}
    (sound : r.Sound s m t) (grows : Memo.Grows s.oracle m later) : r.Sound s later t := by
  cases r with
  | cancelled | unjudged => trivial
  | clean => exact Session.Knows.mono sound grows
  | worked reported pass =>
    obtain ⟨found, knows, some, ordered, pass⟩ := sound
    exact ⟨found, knows.mono grows, some, ordered, pass.mono grows⟩

end Round

/-- After a recorded iteration the reason to stop depends on that iteration only. -/
theorem stopReason?_record (steps : List HealingStep) (iteration : Nat) (reported : List Defect)
    (applied : List Fix) (maxIterations : Int) (remaining : List Defect) :
    stopReason? (steps ++ [.record iteration reported applied]) maxIterations remaining.length =
      if applied = [] then some .noProgress
      else if remaining = [] then some .converged
      else if maxIterations ≤ iteration then some .maxIterations
      else none := by
  have empty {α : Type} (xs : List α) : (xs.length : Int) = 0 ↔ xs = [] := by
    rw [Int.natCast_eq_zero, List.length_eq_zero_iff]
  simp only [stopReason?, List.getLast?_concat, HealingStep.record, empty]

end Mender
