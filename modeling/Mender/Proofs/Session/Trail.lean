import Mender.Proofs.Session.History
import Mender.Proofs.Session.SearchLog

namespace Mender

/-- The reason to stop that iterations end with. Where they did not fail, the verdict at the end still may. -/
def Ending.reason : Ending → StopReason
  | stopped reason => reason
  | failed f => f.reason

namespace Session

variable {ω : Type}

/-- A search as it runs, with what the generators proposed in it. -/
inductive Tried (s : Session ω) (t : Text) (defects : List Defect) (b : Bench ω) :
    List (List (List Fix)) → Except Fault (Walk defects.length) → Bench ω → Prop
  | unranked {proposals b₁ f b'} : s.proposals defects t b = (proposals, b₁) →
      s.ranked proposals.flatten.flatten b₁ = (.error f, b') →
      Tried s t defects b proposals (.error f) b'
  | walked {proposals b₁ fixes b₂ walk b'} : s.proposals defects t b = (proposals, b₁) →
      s.ranked proposals.flatten.flatten b₁ = (.ok fixes, b₂) →
      s.firstImproving t defects.length fixes b₂ = (walk, b') →
      Tried s t defects b proposals (.ok walk) b'

/-- The accepting of fixes as it runs, with its searches. The pass lists only the fixes that were accepted
on the way. -/
inductive PassTrail (s : Session ω) (reported : List Defect) :
    Text → List Defect → Bench ω → Pass → List Search → Bench ω → Prop
  | clean {t b} : PassTrail s reported t [] b ⟨t, [], [], .finished⟩ [] b
  | unranked {t defects b proposals f b'} : defects ≠ [] → s.Tried t defects b proposals (.error f) b' →
      PassTrail s reported t defects b ⟨t, defects, [], .failed (.unexpected f)⟩
        [⟨t, defects, proposals, none⟩] b'
  | unjudged {t defects b proposals e b'} : defects ≠ [] →
      s.Tried t defects b proposals (.ok (.failed e)) b' →
      PassTrail s reported t defects b ⟨t, defects, [], .failed (.oracle e)⟩
        [⟨t, defects, proposals, none⟩] b'
  | exhausted {t defects b proposals b'} : defects ≠ [] →
      s.Tried t defects b proposals (.ok .exhausted) b' →
      PassTrail s reported t defects b ⟨t, defects, [], .finished⟩ [⟨t, defects, proposals, none⟩] b'
  | fresh {t defects b proposals fix healed after fewer b₁ b'} :
      s.Tried t defects b proposals (.ok (.accepted fix healed after fewer)) b₁ →
      hasFresh (Defect.prioritize after) reported = true → b'.memo = b₁.memo →
      b'.desk.world = b₁.desk.world →
      PassTrail s reported t defects b ⟨healed, Defect.prioritize after, [fix], .finished⟩
        [⟨t, defects, proposals, some fix⟩] b'
  | again {t defects b proposals fix healed after fewer b₁ b₂ pass xs b'} :
      s.Tried t defects b proposals (.ok (.accepted fix healed after fewer)) b₁ →
      hasFresh (Defect.prioritize after) reported = false → b₂.memo = b₁.memo →
      b₂.desk.world = b₁.desk.world →
      PassTrail s reported healed (Defect.prioritize after) b₂ pass xs b' →
      PassTrail s reported t defects b { pass with applied := fix :: pass.applied }
        (⟨t, defects, proposals, some fix⟩ :: xs) b'

/-- An iteration as it runs, with its searches. -/
inductive RoundTrail (s : Session ω) (t : Text) (b : Bench ω) : Round → List Search → Bench ω → Prop
  | idle {r b'} : s.Iterated t b r b' → (∀ reported pass, r ≠ .worked reported pass) →
      RoundTrail s t b r [] b'
  | worked {found b₁ b₂ pass xs b'} : s.cancelled b.desk.world = false →
      s.verdict t b = (.ok found, b₁) → found ≠ [] → b₂.memo = b₁.memo →
      b₂.desk.world = b₁.desk.world →
      s.PassTrail (Defect.prioritize found) t (Defect.prioritize found) b₂ pass xs b' →
      RoundTrail s t b (.worked (Defect.prioritize found) pass) xs b'

/-- Iterations as they run from a course, `left` of them at most, with their searches. -/
inductive Trail (s : Session ω) : Nat → Course → Bench ω → List Search → Course → Ending → Bench ω → Prop
  | spent {c b} : Trail s 0 c b [] c (.stopped .maxIterations) b
  | ended {left c b r xs b₁ ending b'} : s.RoundTrail c.current b r xs b₁ →
      r.ending? s.maxIterations (c.after r).steps = some ending → b'.memo = b₁.memo →
      Trail s (left + 1) c b xs (c.after r) ending b'
  | next {left c b r xs b₁ ys c' ending b'} : s.RoundTrail c.current b r xs b₁ →
      r.ending? s.maxIterations (c.after r).steps = none → Trail s left (c.after r) b₁ ys c' ending b' →
      Trail s (left + 1) c b (xs ++ ys) c' ending b'

variable {s : Session ω} {t : Text} {b b₁ b' : Bench ω}

theorem Tried.proposed {defects : List Defect} {proposals : List (List (List Fix))}
    {result : Except Fault (Walk defects.length)} (tried : s.Tried t defects b proposals result b') :
    ∃ b₁, s.proposals defects t b = (proposals, b₁) := by
  cases tried with
  | unranked proposed | walked proposed => exact ⟨_, proposed⟩

theorem Tried.searched {defects : List Defect} {proposals : List (List (List Fix))}
    {result : Except Fault (Walk defects.length)} (tried : s.Tried t defects b proposals result b') :
    s.Searched t defects b result b' := by
  have candidates := s.candidates_eq defects t b
  cases tried with
  | unranked proposed ranked =>
    rw [proposed] at candidates
    exact .unranked candidates ranked
  | walked proposed ranked walked =>
    rw [proposed] at candidates
    exact .walked candidates ranked walked

/-- Without its searches, the accepting of fixes runs as it did. -/
theorem PassTrail.accepting {reported defects : List Defect} {pass : Pass} {xs : List Search}
    (trail : s.PassTrail reported t defects b pass xs b') : s.Accepting reported t defects b pass b' := by
  induction trail with
  | clean => exact .clean
  | unranked unclean tried => exact .unranked unclean tried.searched
  | unjudged unclean tried => exact .unjudged unclean tried.searched
  | exhausted unclean tried => exact .exhausted unclean tried.searched
  | fresh tried unseen memo world => exact .fresh tried.searched unseen memo world
  | again tried unseen memo world _ ih => exact .again tried.searched unseen memo world ih

theorem RoundTrail.iterated {r : Round} {xs : List Search} (trail : s.RoundTrail t b r xs b') :
    s.Iterated t b r b' := by
  cases trail with
  | idle iterated => exact iterated
  | worked goes judging unclean memo _ pass => exact .worked goes judging unclean memo pass.accepting

/-- Searching only adds to what is remembered. -/
theorem Trail.grows {left : Nat} {c last : Course} {xs : List Search} {ending : Ending}
    (trail : s.Trail left c b xs last ending b') : Memo.Grows s.oracle b.memo b'.memo := by
  induction trail with
  | spent => exact .refl
  | ended round _ same => exact same ▸ round.iterated.grows
  | next round _ _ ih => exact round.iterated.grows.trans ih

theorem loggedFixes_trail {iteration : Nat} {reported defects : List Defect} {applied : List Fix} {pass : Pass}
    {xs : List Search}
    (run : s.loggedFixes iteration reported t defects applied b = ((pass, xs), b')) :
    ∃ fixes, pass.applied = applied ++ fixes ∧
      s.PassTrail reported t defects b { pass with applied := fixes } xs b' := by
  induction size : defects.length using Nat.strongRecOn generalizing t defects applied b pass xs with
  | _ n ih =>
    subst size
    unfold loggedFixes at run
    by_cases none : defects = []
    · subst none
      cases run
      exact ⟨[], by simp, .clean⟩
    rw [if_neg (by simpa using none)] at run
    obtain ⟨proposals, b₁, proposed, run⟩ := StateM.bind_eq_iff.mp run
    obtain ⟨fixes?, b₂, ranked, run⟩ := StateM.bind_eq_iff.mp run
    cases fixes? with
    | error f =>
      cases run
      exact ⟨[], by simp, .unranked none (.unranked proposed ranked)⟩
    | ok fixes =>
      obtain ⟨walk, b₃, walked, run⟩ := StateM.bind_eq_iff.mp run
      have tried := Tried.walked proposed ranked walked
      cases walk with
      | failed e =>
        cases run
        exact ⟨[], by simp, .unjudged none tried⟩
      | exhausted =>
        cases run
        exact ⟨[], by simp, .exhausted none tried⟩
      | accepted fix healed after fewer =>
        obtain ⟨_, b₄, noted, run⟩ := StateM.bind_eq_iff.mp run
        cases noted
        by_cases unseen : hasFresh (Defect.prioritize after) reported
        · rw [if_pos unseen] at run
          cases run
          exact ⟨[fix], rfl, .fresh tried unseen rfl rfl⟩
        · rw [if_neg unseen] at run
          obtain ⟨⟨pass', ys⟩, b₅, rest, run⟩ := StateM.bind_eq_iff.mp run
          cases run
          have smaller : (Defect.prioritize after).length < defects.length := by
            rw [Defect.length_prioritize]
            exact fewer
          obtain ⟨later, split, trail⟩ := ih _ smaller rest rfl
          refine ⟨fix :: later, by rw [split, List.append_assoc, List.singleton_append], ?_⟩
          refine .again tried (by simpa using unseen) ?_ ?_ trail
          · rfl
          · rfl

/-- The searches of an iteration are read off where the iteration runs. -/
theorem round_trail {iteration : Nat} {r : Round} (run : s.round iteration t b = (r, b')) :
    s.RoundTrail t b r (s.roundSearches iteration t b).1 b' := by
  have iterated := round_iterated run
  obtain ⟨xs, last, logged⟩ : ∃ xs last, s.roundSearches iteration t b = (xs, last) := ⟨_, _, rfl⟩
  rw [logged]
  unfold round at run
  unfold roundSearches at logged
  obtain ⟨_, _, got, run⟩ := StateM.bind_eq_iff.mp run
  obtain ⟨_, _, got', logged⟩ := StateM.bind_eq_iff.mp logged
  cases got
  cases got'
  by_cases stop : s.cancelled b.desk.world
  · rw [if_pos stop] at run logged
    cases run
    cases logged
    exact .idle iterated nofun
  rw [if_neg stop] at run logged
  obtain ⟨judged, b₁, judging, run⟩ := StateM.bind_eq_iff.mp run
  obtain ⟨_, _, judging', logged⟩ := StateM.bind_eq_iff.mp logged
  rw [judging] at judging'
  cases judging'
  cases judged with
  | error e =>
    cases run
    cases logged
    exact .idle iterated nofun
  | ok found =>
    cases found with
    | nil =>
      cases run
      cases logged
      exact .idle iterated nofun
    | cons d more =>
      obtain ⟨_, b₂, noted, run⟩ := StateM.bind_eq_iff.mp run
      obtain ⟨_, _, noted', logged⟩ := StateM.bind_eq_iff.mp logged
      rw [noted] at noted'
      cases noted'
      obtain ⟨⟨pass, xs'⟩, b₃, accepted, logged⟩ := StateM.bind_eq_iff.mp logged
      obtain ⟨pass', _, accepted', run⟩ := StateM.bind_eq_iff.mp run
      rw [acceptFixes_eq_loggedFixes, accepted] at accepted'
      cases accepted'
      cases run
      cases logged
      obtain ⟨fixes, applied, trail⟩ := loggedFixes_trail accepted
      rw [List.nil_append] at applied
      rw [← applied] at trail
      exact .worked (by simpa using stop) judging (by simp) (by cases noted; rfl) (by cases noted; rfl) trail

section Iterations

variable {left : Nat} {c last : Course} {r : Round} {ending : Ending}

theorem searchesFrom_of_stops {stop : Ending} (ran : s.round (c.iterations + 1) c.current b = (r, b₁))
    (stops : r.ending? s.maxIterations (c.after r).steps = some stop) :
    (s.searchesFrom (left + 1) c b).1 = (s.roundSearches (c.iterations + 1) c.current b).1 := by
  have run : s.searchesFrom (left + 1) c b =
      ((s.roundSearches (c.iterations + 1) c.current b).1, (s.noteStop r stop b₁).2) := by
    refine StateM.bind_eq_iff.mpr ⟨_, _, rfl, StateM.bind_eq_iff.mpr ⟨r, b₁, ran, ?_⟩⟩
    simp only [stops]
    rfl
  rw [run]

theorem searchesFrom_of_goes (ran : s.round (c.iterations + 1) c.current b = (r, b₁))
    (goes : r.ending? s.maxIterations (c.after r).steps = none) :
    (s.searchesFrom (left + 1) c b).1 = (s.roundSearches (c.iterations + 1) c.current b).1 ++
      (s.searchesFrom left (c.after r) b₁).1 := by
  have run : s.searchesFrom (left + 1) c b =
      ((s.roundSearches (c.iterations + 1) c.current b).1 ++ (s.searchesFrom left (c.after r) b₁).1,
        (s.searchesFrom left (c.after r) b₁).2) := by
    refine StateM.bind_eq_iff.mpr ⟨_, _, rfl, StateM.bind_eq_iff.mpr ⟨r, b₁, ran, ?_⟩⟩
    simp only [goes]
    rfl
  rw [run]

/-- The log kept beside the loop is a trail of it. -/
theorem iterate_trail (run : s.iterate left c b = ((last, ending), b')) :
    s.Trail left c b (s.searchesFrom left c b).1 last ending b' := by
  induction left generalizing c b with
  | zero =>
    cases run
    exact .spent
  | succ left ih =>
    obtain ⟨r, b₁, ran⟩ : ∃ r b₁, s.round (c.iterations + 1) c.current b = (r, b₁) := ⟨_, _, rfl⟩
    have trail := round_trail ran
    cases stops : r.ending? s.maxIterations (c.after r).steps with
    | some stop =>
      rw [iterate_of_stops ran stops] at run
      have same := noteStop_memo (Prod.eta (s.noteStop r stop b₁)).symm
      cases run
      rw [searchesFrom_of_stops ran stops]
      exact .ended trail stops same
    | none =>
      rw [iterate_of_goes ran stops] at run
      rw [searchesFrom_of_goes ran stops]
      exact .next trail stops (ih run)

end Iterations

/-- The searches of a session lead to what it hands back. -/
theorem run_trail (s : Session ω) (b : Bench ω) : ∃ c ending b₁,
    s.Trail s.maxIterations.toNat ⟨s.text, 0, []⟩ (s.announce b).2 (s.searches b).1 c ending b₁ ∧
      Memo.Grows s.oracle b₁.memo (s.run b).2.memo ∧ (s.run b).1.healed = c.current ∧
      (s.run b).1.steps = c.steps ∧
      ((s.run b).1.stopReason = ending.reason ∨
        (∃ reason, ending = .stopped reason) ∧ (s.run b).1.stopReason = .oracleFailure) := by
  obtain ⟨o, b', run⟩ : ∃ o b', s.run b = (o, b') := ⟨_, _, rfl⟩
  rw [run]
  unfold Session.run at run
  obtain ⟨_, _, announced, run⟩ := StateM.bind_eq_iff.mp run
  obtain ⟨⟨c, ending⟩, b₁, iterated, run⟩ := StateM.bind_eq_iff.mp run
  cases announced
  refine ⟨c, ending, b₁, iterate_trail iterated, ?_⟩
  cases ending with
  | failed f =>
    cases run
    exact ⟨.refl, rfl, rfl, Or.inl rfl⟩
  | stopped reason =>
    obtain ⟨judged, _, judging, run⟩ := StateM.bind_eq_iff.mp run
    have grows := verdict_grows judging
    cases judged with
    | error e =>
      cases run
      exact ⟨grows, rfl, rfl, Or.inr ⟨⟨reason, rfl⟩, rfl⟩⟩
    | ok final =>
      cases run
      exact ⟨grows, rfl, rfl, Or.inl rfl⟩

end Session

end Mender
