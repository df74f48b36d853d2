import Mender.Session
import Mender.Proofs.Bench

namespace Mender

/-- By the verdicts of a memo the fix does not help a text with `count` defects: it does not apply, it
changes nothing, or the text that comes of it has no fewer defects. -/
def Fix.Useless (m : Memo) (t : Text) (count : Nat) (f : Fix) : Prop :=
  ∀ u, f.apply t = .ok u → u ≠ t → ∃ found, m.find? u = some found ∧ count ≤ found.length

/-- The end of a walk over ranked fixes is borne out by a memo. -/
def Walk.Sound {count : Nat} (m : Memo) (t : Text) (fixes : List Fix) : Walk count → Prop
  | .accepted fix healed remaining _ =>
    ∃ passed rest, fixes = passed ++ fix :: rest ∧ (∀ f ∈ passed, f.Useless m t count) ∧
      fix.apply t = .ok healed ∧ healed ≠ t ∧ m.find? healed = some remaining
  | .exhausted => ∀ f ∈ fixes, f.Useless m t count
  | .failed _ => True

/-- A useless fix in front changes nothing about what a walk may report. -/
theorem Walk.Sound.cons {count : Nat} {m : Memo} {t : Text} {f : Fix} {fixes : List Fix}
    {walk : Walk count} (useless : f.Useless m t count) (sound : walk.Sound m t fixes) :
    walk.Sound m t (f :: fixes) := by
  cases walk with
  | accepted fix healed remaining fewer =>
    obtain ⟨passed, rest, split, all, facts⟩ := sound
    refine ⟨f :: passed, rest, by rw [split, List.cons_append], ?_, facts⟩
    intro g member
    rcases List.mem_cons.mp member with same | earlier
    · exact same ▸ useless
    · exact all g earlier
  | exhausted =>
    intro g member
    rcases List.mem_cons.mp member with same | later
    · exact same ▸ useless
    · exact sound g later
  | failed => trivial

namespace Session

variable {ω : Type}

/-- A walk over ranked fixes for a text with `count` defects, by the verdicts of a memo. It passes over
fixes that are useless, and ends with one that leaves fewer defects or with one that leads to a text which
the oracle does not judge. -/
inductive Walked (s : Session ω) (m : Memo) (t : Text) (count : Nat) : List Fix → Walk count → Prop
  | exhausted : Walked s m t count [] .exhausted
  | passed {f rest walk} : f.Useless m t count → Walked s m t count rest walk →
      Walked s m t count (f :: rest) walk
  | accepted {f rest u after fewer} : f.apply t = .ok u → u ≠ t → m.find? u = some after →
      Walked s m t count (f :: rest) (.accepted f u after fewer)
  | failed {f rest u e} : f.apply t = .ok u → u ≠ t →
      (s.oracleLimit.faultUnlessBlank? = none → ∃ w trouble, (s.oracle.judge u w).1 = .error trouble) →
      Walked s m t count (f :: rest) (.failed e)

variable {s : Session ω} {t : Text} {b b' : Bench ω}

theorem Walked.sound {m : Memo} {count : Nat} {fixes : List Fix} {walk : Walk count}
    (walked : s.Walked m t count fixes walk) : walk.Sound m t fixes := by
  induction walked with
  | exhausted => simp [Walk.Sound]
  | passed useless _ ih => exact ih.cons useless
  | accepted applied changed known => exact ⟨[], _, rfl, by simp, applied, changed, known⟩
  | failed => trivial

theorem ranked_memo {found : List Fix} {result : Except Fault (List Fix)}
    (run : s.ranked found b = (result, b')) : b'.memo = b.memo := by
  obtain ⟨fault, mid, turn, rest⟩ := StateM.bind_eq_iff.mp run
  have same := (Bench.atDesk_eq_iff.mp turn).2
  cases fault <;> cases rest <;> exact same

theorem verdict_grows {result : Except OracleError (List Defect)}
    (run : s.verdict t b = (result, b')) : Memo.Grows s.oracle b.memo b'.memo :=
  (Bench.verdict_looked run).grows

/-- The walk tries fixes in order and stops at the first that leaves fewer defects. -/
theorem firstImproving_walked {count : Nat} {fixes : List Fix} {walk : Walk count}
    (run : s.firstImproving t count fixes b = (walk, b')) :
    Memo.Grows s.oracle b.memo b'.memo ∧ s.Walked b'.memo t count fixes walk := by
  induction fixes generalizing b with
  | nil =>
    cases run
    exact ⟨.refl, .exhausted⟩
  | cons fix rest ih =>
    unfold firstImproving at run
    cases applied : fix.apply t with
    | error e =>
      simp only [applied] at run
      obtain ⟨_, _, noted, run⟩ := StateM.bind_eq_iff.mp run
      cases noted
      obtain ⟨grows, walked⟩ := ih run
      exact ⟨grows, .passed (fun u ok => by simp [applied] at ok) walked⟩
    | ok candidate =>
      simp only [applied] at run
      by_cases same : candidate = t
      · rw [if_pos same] at run
        obtain ⟨_, _, noted, run⟩ := StateM.bind_eq_iff.mp run
        cases noted
        obtain ⟨grows, walked⟩ := ih run
        refine ⟨grows, .passed (fun u ok changed => ?_) walked⟩
        rw [applied] at ok
        cases ok
        exact (changed same).elim
      · rw [if_neg same] at run
        obtain ⟨_, _, revisited, run⟩ := StateM.bind_eq_iff.mp run
        cases revisited
        obtain ⟨judged, mid, judging, run⟩ := StateM.bind_eq_iff.mp run
        have first := verdict_grows judging
        have looked := Bench.verdict_looked judging
        cases judged with
        | error e =>
          cases run
          exact ⟨first, .failed applied same looked.trouble⟩
        | ok after =>
          have known := looked.known.2
          simp only at run
          by_cases fewer : after.length < count
          · rw [dif_pos fewer] at run
            cases run
            exact ⟨first, .accepted applied same known⟩
          · rw [dif_neg fewer] at run
            obtain ⟨_, _, noted, run⟩ := StateM.bind_eq_iff.mp run
            cases noted
            obtain ⟨grows, walked⟩ := ih run
            refine ⟨first.trans grows, .passed (fun u ok _ => ?_) walked⟩
            rw [applied] at ok
            cases ok
            exact ⟨after, grows.kept known, Nat.le_of_not_lt fewer⟩

/-- What a walk accepts is one of the fixes it was given, and improves the text. -/
theorem firstImproving_sound {count : Nat} {fixes : List Fix} {walk : Walk count}
    (run : s.firstImproving t count fixes b = (walk, b')) :
    Memo.Grows s.oracle b.memo b'.memo ∧ walk.Sound b'.memo t fixes := by
  obtain ⟨grows, walked⟩ := firstImproving_walked run
  exact ⟨grows, walked.sound⟩

/-- A search as it runs: it ends with a fault of the ranking or with a walk over the ranked fixes. -/
inductive Searched (s : Session ω) (t : Text) (defects : List Defect) (b : Bench ω) :
    Except Fault (Walk defects.length) → Bench ω → Prop
  | unranked {found b₁ f b'} : s.candidates defects t b = (found, b₁) →
      s.ranked found b₁ = (.error f, b') → Searched s t defects b (.error f) b'
  | walked {found b₁ fixes b₂ walk b'} : s.candidates defects t b = (found, b₁) →
      s.ranked found b₁ = (.ok fixes, b₂) →
      s.firstImproving t defects.length fixes b₂ = (walk, b') → Searched s t defects b (.ok walk) b'

namespace Searched

variable {defects : List Defect}

theorem grows {result : Except Fault (Walk defects.length)}
    (search : s.Searched t defects b result b') : Memo.Grows s.oracle b.memo b'.memo := by
  cases search with
  | unranked proposed ranked =>
    exact .of_eq ((ranked_memo ranked).trans (Bench.atDesk_eq_iff.mp proposed).2)
  | walked proposed ranked walked =>
    have same := (ranked_memo ranked).trans (Bench.atDesk_eq_iff.mp proposed).2
    exact same ▸ (firstImproving_sound walked).1

theorem accepted {fix : Fix} {healed : Text} {after : List Defect}
    {fewer : after.length < defects.length}
    (search : s.Searched t defects b (.ok (.accepted fix healed after fewer)) b') :
    fix.apply t = .ok healed ∧ b'.memo.find? healed = some after := by
  cases search with
  | walked proposed ranked walked =>
    obtain ⟨_, _, _, _, applied, _, known⟩ := (firstImproving_sound walked).2
    exact ⟨applied, known⟩

end Searched

end Session

end Mender
