import Mender.Proofs.Session.Budget
import Mender.Proofs.Session.Decline
import Mender.Proofs.Session.Watched

namespace Mender

variable {ω : Type}

/-- What a search goes by is so by a memo: the defects of its text, and the verdicts on the texts to which
the ranked proposals lead, as far as they were tried. -/
structure Search.Judged (s : Session ω) (m : Memo) (x : Search) : Prop where
  before : ∃ found, s.Knows m x.text found ∧ x.defects = Defect.prioritize found
  after : (x.accepted = none ∧ ∃ f, rankFixes? x.emitted = .error f ∨ ∃ w, (s.atRanking w).1 = some f) ∨
    ∃ fixes walk, rankFixes? x.emitted = .ok fixes ∧ s.Walked m x.text x.defects.length fixes walk ∧
      x.accepted = walk.fix?

namespace Session

/-- Iterations lead from a text to another, each from the text that the one before arrived at, and what they
report is so by a memo. -/
inductive RoundsLead (s : Session ω) (m : Memo) : Text → List Round → Text → Prop
  | stay {t} : RoundsLead s m t [] t
  | round {t r rounds u} : r.Sound s m t → RoundsLead s m (r.arrival t) rounds u →
      RoundsLead s m t (r :: rounds) u

variable {s : Session ω} {m later : Memo} {t u : Text} {b b' : Bench ω}

theorem RoundsLead.mono {rounds : List Round} (leads : s.RoundsLead m t rounds u)
    (grows : Memo.Grows s.oracle m later) : s.RoundsLead later t rounds u := by
  induction leads with
  | stay => exact .stay
  | round sound _ ih => exact .round (sound.mono grows) ih

/-- Each round of the loop begins with the text at which the one before it arrived. -/
theorem Iterating.roundsLead {left : Nat} {c last : Course} {rounds : List Round} {ending : Ending}
    (iterating : s.Iterating left c b rounds last ending b') :
    s.RoundsLead b'.memo c.current rounds last.current := by
  induction iterating with
  | spent => exact .stay
  | ended iterated _ same =>
    rw [same, Course.current_after]
    exact .round iterated.sound .stay
  | next iterated _ rest ih =>
    rw [Course.current_after] at ih
    exact .round (iterated.sound.mono rest.grows) ih

theorem Ran.roundsLead {o : Outcome} (ran : s.Ran b o b') :
    s.RoundsLead b'.memo s.text (s.history b).1 o.healed := by
  cases ran with
  | failed iterating same =>
    rw [same]
    exact iterating.roundsLead
  | unjudged iterating judging same | finished iterating judging same =>
    rw [same]
    exact iterating.roundsLead.mono (verdict_grows judging)

theorem Walked.mono {count : Nat} {fixes : List Fix} {walk : Walk count}
    (walked : s.Walked m t count fixes walk) (grows : Memo.Grows s.oracle m later) :
    s.Walked later t count fixes walk := by
  induction walked with
  | exhausted => exact .exhausted
  | passed useless _ ih =>
    refine .passed (fun u applied changed => ?_) ih
    obtain ⟨found, known, many⟩ := useless u applied changed
    exact ⟨found, grows.kept known, many⟩
  | accepted applied changed known => exact .accepted applied changed (grows.kept known)
  | failed applied changed trouble => exact .failed applied changed trouble

end Session

namespace Search.Judged

variable {s : Session ω} {m later : Memo} {x : Search}

theorem mono (judged : x.Judged s m) (grows : Memo.Grows s.oracle m later) : x.Judged s later where
  before := by
    obtain ⟨found, knows, ordered⟩ := judged.before
    exact ⟨found, knows.mono grows, ordered⟩
  after := by
    refine judged.after.imp_right ?_
    rintro ⟨fixes, walk, ranked, walked, accepted⟩
    exact ⟨fixes, walk, ranked, walked.mono grows, accepted⟩

end Search.Judged

namespace Session

variable {s : Session ω} {t : Text} {found : List Defect} {b b' : Bench ω} {xs : List Search}

theorem Tried.judged {defects : List Defect} {proposals : List (List (List Fix))}
    {result : Except Fault (Walk defects.length)} {accepted : Option Fix}
    (tried : s.Tried t defects b proposals result b') (knows : s.Knows b.memo t found)
    (ordered : defects = Defect.prioritize found)
    (accepts : accepted = result.toOption.bind Walk.fix?) :
    Search.Judged s b'.memo ⟨t, defects, proposals, accepted⟩ where
  before := ⟨found, knows.mono tried.searched.grows, ordered⟩
  after := by
    cases tried with
    | unranked _ ranked =>
      refine Or.inl ⟨accepts, ?_⟩
      rcases ranked_cases ranked with ⟨w, f, fault, _⟩ | unrankable
      · exact ⟨f, Or.inr ⟨w, fault⟩⟩
      · exact ⟨_, Or.inl unrankable.symm⟩
    | walked _ ranked walked =>
      rcases ranked_cases ranked with ⟨_, _, _, failed⟩ | rankable
      · cases failed
      · exact Or.inr ⟨_, _, rankable.symm, (firstImproving_walked walked).2, accepts⟩

/-- The defects a search is made for are those that the memo holds for its text. -/
theorem PassTrail.judged {reported defects : List Defect} {pass : Pass}
    (trail : s.PassTrail reported t defects b pass xs b') (knows : s.Knows b.memo t found)
    (ordered : defects = Defect.prioritize found) : ∀ x ∈ xs, x.Judged s b'.memo := by
  induction trail generalizing found with
  | clean => exact nofun
  | unranked _ tried | unjudged _ tried | exhausted _ tried =>
    exact List.forall_mem_singleton.mpr (tried.judged knows ordered rfl)
  | fresh tried _ memo =>
    rw [memo]
    exact List.forall_mem_singleton.mpr (tried.judged knows ordered rfl)
  | @again t defects b proposals fix healed after fewer b₁ b₂ pass xs b' tried _ memo _ rest ih =>
    have here : Search.Judged s b₁.memo ⟨t, defects, proposals, some fix⟩ := tried.judged knows ordered rfl
    have known := tried.searched.accepted.2
    refine List.forall_mem_cons.mpr ⟨here.mono (memo ▸ rest.accepting.grows), ?_⟩
    exact ih ⟨knows.keepable, memo ▸ known⟩ rfl

theorem RoundTrail.judged {r : Round} (trail : s.RoundTrail t b r xs b') : ∀ x ∈ xs, x.Judged s b'.memo := by
  cases trail with
  | idle => exact nofun
  | worked _ judging _ memo _ pass => exact pass.judged (memo ▸ knows_of_verdict judging) rfl

/-- Every search of a run goes by the memo at its end: answers are never replaced. -/
theorem Trail.judged {left : Nat} {c last : Course} {ending : Ending}
    (trail : s.Trail left c b xs last ending b') : ∀ x ∈ xs, x.Judged s b'.memo := by
  induction trail with
  | spent => exact nofun
  | ended round _ memo =>
    rw [memo]
    exact round.judged
  | next round _ rest ih =>
    exact List.forall_mem_append.mpr ⟨fun x member => (round.judged x member).mono rest.grows, ih⟩

/-- No text is put to the oracle of a session twice, and its one answer is all that the session goes by. A
record of the calls, kept beside the session without changing it, has one entry for each text that the memo
did not know, and the memo at the end holds the defects in the answers, be they none. The iterations, the
searches in them, the steps and the verdict at the end go by this memo. -/
theorem one_answer (s : Session ω) (b : Bench ω) :
    (∃ calls, s.watched.run (b.beside []) = ((s.run b).1, (s.run b).2.beside calls) ∧
      Recorded b.memo (s.run b).2.memo calls) ∧
    s.RoundsLead (s.run b).2.memo s.text (s.history b).1 (s.run b).1.healed ∧
    (∀ x ∈ (s.searches b).1, x.Judged s (s.run b).2.memo) ∧
    StepsLead (s.run b).2.memo s.text (s.run b).1.steps (s.run b).1.healed ∧
    ∀ final, (s.run b).1.final = some final → (s.run b).2.memo.find? (s.run b).1.healed = some final := by
  refine ⟨?_, (s.run_ran b).roundsLead, ?_, (s.run_ran b).leads, ?_⟩
  · have cancelled : ∀ x y, Watching b.memo false x y →
        s.cancelled x.desk.world = s.watched.cancelled y.desk.world := by
      rintro x _ ⟨calls, rfl, _⟩
      rfl
    have start : Watching b.memo false b (b.beside []) := ⟨[], rfl, .nil, by simp⟩
    obtain ⟨same, calls, last, recorded, _⟩ := (s.watched_parallel b.memo).run cancelled rfl _ _ start
    exact ⟨calls, Prod.ext same.symm last, recorded⟩
  · obtain ⟨c, ending, b₁, trail, grows, _⟩ := s.run_trail b
    exact fun x member => (trail.judged x member).mono grows
  · intro final judged
    rcases (s.run_ran b).final_known with ⟨_, same, known⟩ | ⟨none, _⟩
    · rw [judged] at same
      cases same
      exact known
    · rw [judged] at none
      cases none

end Session

end Mender
