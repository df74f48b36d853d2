import Mender.Proofs.Session.Determined
import Mender.Proofs.Session.Replay
import Mender.Proofs.Session.Trail

namespace Mender

variable {ω : Type} {s : Session ω} {answers : Answers} {t u : Text}

/-- By the answers of an oracle the fix applies to a text and leaves fewer defects. -/
def Fix.Improves (answers : Answers) (t : Text) (f : Fix) : Prop :=
  ∃ u found after, f.apply t = .ok u ∧ answers t = .ok found ∧ answers u = .ok after ∧
    after.length < found.length

/-- Of all proposals for a text the fix is the surest one that improves it, and the earliest of those that
are as sure. -/
def Fix.Best (answers : Answers) (t : Text) (emitted : List Fix) (f : Fix) : Prop :=
  f.Improves answers t ∧ ∃ earlier later, emitted = earlier ++ f :: later ∧
    (∀ g ∈ earlier, g.Improves answers t → g.confidence.atLeast f.confidence = false) ∧
    ∀ g ∈ later, g.Improves answers t → f.confidence.atLeast g.confidence

/-- The search is about the defects that the oracle finds in its text, the most severe first; its proposals
come from the generators of the session, each called for one of these defects on this text; and if it
accepted a fix, then the best one. -/
structure Search.Greedy (answers : Answers) (s : Session ω) (x : Search) : Prop where
  reported : ∃ found, answers x.text = .ok found ∧ x.defects = Defect.prioritize found
  proposed : List.Forall₂
    (fun d row => List.Forall₂ (fun g fixes => ∃ y, fixes = (g.fixes s.generatorLimit d x.text y).1)
      s.generators row) x.defects x.proposals
  best : ∀ f, x.accepted = some f → f.Best answers x.text x.emitted

/-- Nothing that was proposed in the search improves its text. -/
def Search.Barren (answers : Answers) (x : Search) : Prop :=
  x.accepted = none ∧ ∀ f ∈ x.emitted, ¬f.Improves answers x.text

/-- Greedy searches that accept these fixes, one after the other, on the way from a text. -/
structure Session.Chronicle (answers : Answers) (s : Session ω) (t : Text) (fixes : List Fix)
    (xs : List Search) : Prop where
  greedy : ∀ x ∈ xs, x.Greedy answers s
  choices : xs.filterMap Search.choice? = (textsAlong t fixes).zip fixes

theorem Descent.zip_append {m : Memo} {fixes : List Fix} (descent : Descent m t fixes u) (more : List Fix) :
    (textsAlong t (fixes ++ more)).zip (fixes ++ more) =
      (textsAlong t fixes).zip fixes ++ (textsAlong u more).zip more := by
  induction descent with
  | stay => rfl
  | accept applied _ _ ih => simp only [List.cons_append, textsAlong, applied, List.zip_cons_cons, ih]

namespace Session.Chronicle

variable {fixes more : List Fix} {xs ys : List Search} {x : Search}

theorem nil : s.Chronicle answers t [] [] := ⟨by simp, rfl⟩

theorem passed (greedy : x.Greedy answers s) (none : x.accepted = none) : s.Chronicle answers t [] [x] where
  greedy := by simpa using greedy
  choices := by simp [Search.choice?, none]

theorem cons {f : Fix} (greedy : x.Greedy answers s) (about : x.text = t) (accepted : x.accepted = some f)
    (applied : f.apply t = .ok u) (rest : s.Chronicle answers u fixes xs) :
    s.Chronicle answers t (f :: fixes) (x :: xs) where
  greedy := List.forall_mem_cons.mpr ⟨greedy, rest.greedy⟩
  choices := by
    have choice : x.choice? = some (t, f) := by rw [Search.choice?, accepted, about, Option.map_some]
    rw [List.filterMap_cons_some choice, rest.choices, textsAlong, applied, List.zip_cons_cons]

theorem append {m : Memo} (first : s.Chronicle answers t fixes xs) (descent : Descent m t fixes u)
    (rest : s.Chronicle answers u more ys) : s.Chronicle answers t (fixes ++ more) (xs ++ ys) where
  greedy := List.forall_mem_append.mpr ⟨first.greedy, rest.greedy⟩
  choices := by rw [List.filterMap_append, first.choices, rest.choices, descent.zip_append]

end Session.Chronicle

section Trials

variable {limit : Limit} {found : List Defect} {f : Fix} {emitted : List Fix}

/-- A fix that improves a text ends a walk over fixes for it. -/
theorem Fix.Improves.trial_isSome (improves : f.Improves answers t)
    (judged : answers.judgement limit t = .ok found) :
    (f.trial (answers.judgement limit) t found.length).isSome := by
  obtain ⟨u, before, after, applied, answer, answer', fewer⟩ := improves
  obtain ⟨keepable, known⟩ := Answers.judgement_eq_ok_iff.mp judged
  rw [known] at answer
  cases answer
  have changed : u ≠ t := by
    rintro rfl
    rw [known] at answer'
    cases answer'
    exact Nat.lt_irrefl _ fewer
  have verdict := Answers.judgement_eq_ok_iff.mpr ⟨keepable, answer'⟩
  simp only [trial, applied, if_neg changed, verdict, dif_pos fewer, Option.isSome_some]

theorem Fix.best_of_choose {count : Nat} {healed : Text} {after : List Defect} {fewer : after.length < count}
    (judged : answers.judgement limit t = .ok found) (size : count = found.length)
    (chosen : choose (answers.judgement limit) t count emitted = .ok (.accepted f healed after fewer)) :
    f.Best answers t emitted ∧ f.apply t = .ok healed ∧ answers.judgement limit healed = .ok after := by
  subst size
  obtain ⟨ends, earlier, later, split, worse, atMost⟩ := Mender.best_of_choose chosen
  obtain ⟨_, applied, _, verdict⟩ := Fix.eq_of_trial_accepted ends
  have answer := (Answers.judgement_eq_ok_iff.mp judged).2
  have answer' := (Answers.judgement_eq_ok_iff.mp verdict).2
  refine ⟨⟨⟨healed, found, after, applied, answer, answer', fewer⟩, earlier, later, split, ?_, ?_⟩, applied,
    verdict⟩
  · exact fun g member improves => worse g member (improves.trial_isSome judged)
  · exact fun g member improves => atMost g member (improves.trial_isSome judged)

theorem Fix.not_improves_of_choose {count : Nat} (judged : answers.judgement limit t = .ok found)
    (size : count = found.length)
    (chosen : choose (answers.judgement limit) t count emitted = .ok .exhausted) :
    ∀ f ∈ emitted, ¬f.Improves answers t := by
  subst size
  intro f member improves
  have ends := improves.trial_isSome judged
  rw [useless_of_choose chosen f member] at ends
  cases ends

end Trials

namespace Session

variable {b b' b₁ : Bench ω} {found : List Defect} {proposals : List (List (List Fix))}

theorem Tried.greedy {result : Except Fault (Walk (Defect.prioritize found).length)} {accepted : Option Fix}
    (tried : s.Tried t (Defect.prioritize found) b proposals result b')
    (judged : answers.judgement s.oracleLimit t = .ok found)
    (best : ∀ f, accepted = some f → f.Best answers t proposals.flatten.flatten) :
    Search.Greedy answers s ⟨t, Defect.prioritize found, proposals, accepted⟩ where
  reported := ⟨found, (Answers.judgement_eq_ok_iff.mp judged).2, rfl⟩
  proposed := by
    obtain ⟨_, proposed⟩ := tried.proposed
    have rows := Generator.proposals_forall₂ s.generators s.generatorLimit t (Defect.prioritize found) b.desk
    rwa [(Bench.atDesk_eq_iff.mp proposed).1] at rows
  best := best

/-- What comes of a walk is the choice among the proposals. -/
theorem Tried.chosen {walk : Walk (Defect.prioritize found).length}
    (tried : s.Tried t (Defect.prioritize found) b proposals (.ok walk) b') (follows : s.oracle.Follows answers)
    (repeats : b.memo.Repeats answers) :
    choose (answers.judgement s.oracleLimit) t (Defect.prioritize found).length proposals.flatten.flatten =
      .ok walk := by
  have candidates := s.candidates_eq (Defect.prioritize found) t b
  have search := tried.searched
  cases tried with
  | walked proposed =>
    rw [proposed] at candidates
    rcases search.chosen follows repeats with ⟨_, _, _, failed⟩ | chosen
    · cases failed
    · rw [chosen, candidates]

/-- The searches of a pass are greedy and accept the fixes of the pass. A pass that accepts nothing ends with
a search that had nothing to accept, unless it failed. -/
theorem PassTrail.chronicle (follows : s.oracle.Follows answers) {reported defects : List Defect} {pass : Pass}
    {xs : List Search} (trail : s.PassTrail reported t defects b pass xs b')
    (judged : answers.judgement s.oracleLimit t = .ok found) (ordered : defects = Defect.prioritize found)
    (repeats : b.memo.Repeats answers) :
    s.Chronicle answers t pass.applied xs ∧ (found ≠ [] → pass.ending = .finished → pass.applied = [] →
      ∃ x, xs.getLast? = some x ∧ x.text = pass.current ∧ x.Barren answers) := by
  induction trail generalizing found with
  | clean =>
    have clean := Defect.prioritize_eq_nil_iff.mp ordered.symm
    exact ⟨.nil, fun some => (some clean).elim⟩
  | unranked _ tried | unjudged _ tried =>
    subst ordered
    exact ⟨.passed (tried.greedy judged nofun) rfl, fun _ => nofun⟩
  | exhausted _ tried =>
    subst ordered
    have barren := Fix.not_improves_of_choose judged (Defect.length_prioritize found)
      (tried.chosen follows repeats)
    exact ⟨.passed (tried.greedy judged nofun) rfl, fun _ _ _ => ⟨_, rfl, rfl, rfl, barren⟩⟩
  | fresh tried =>
    subst ordered
    obtain ⟨best, applies, _⟩ := Fix.best_of_choose judged (Defect.length_prioritize found)
      (tried.chosen follows repeats)
    have greedy := tried.greedy judged fun f same => Option.some.inj same ▸ best
    exact ⟨.cons greedy rfl rfl applies .nil, fun _ _ => nofun⟩
  | again tried _ memo _ _ ih =>
    subst ordered
    obtain ⟨best, applies, judged'⟩ := Fix.best_of_choose judged (Defect.length_prioritize found)
      (tried.chosen follows repeats)
    have greedy := tried.greedy judged fun f same => Option.some.inj same ▸ best
    have later := (ih judged' rfl (memo ▸ repeats.grows follows tried.searched.grows)).1
    exact ⟨.cons greedy rfl rfl applies later, fun _ _ => nofun⟩

/-- The searches of an iteration are greedy and accept its fixes. -/
theorem RoundTrail.chronicle (follows : s.oracle.Follows answers) {r : Round} {xs : List Search}
    (trail : s.RoundTrail t b r xs b') (repeats : b.memo.Repeats answers) :
    s.Chronicle answers t r.accepted xs ∧
      ∀ reported pass, r = .worked reported pass → pass.ending = .finished → pass.applied = [] →
        ∃ x, xs.getLast? = some x ∧ x.text = pass.current ∧ x.Barren answers := by
  cases trail with
  | idle _ other =>
    cases r with
    | cancelled | unjudged e | clean => exact ⟨.nil, nofun⟩
    | worked reported pass => exact (other reported pass rfl).elim
  | worked _ judging unclean memo _ trail =>
    have repeats := repeats.grows follows (verdict_grows judging)
    obtain ⟨keepable, known⟩ := (Bench.verdict_looked judging).known
    have judged := Answers.judgement_eq_ok_iff.mpr ⟨keepable, repeats _ _ known⟩
    obtain ⟨chronicle, barren⟩ := trail.chronicle follows judged rfl (memo ▸ repeats)
    refine ⟨chronicle, ?_⟩
    rintro _ _ ⟨⟩ finished idle
    exact barren unclean finished idle

section Iterations

variable {left : Nat} {c last : Course} {r : Round} {ending : Ending}

theorem worked_of_noProgress
    (stops : r.ending? s.maxIterations (c.after r).steps = some (.stopped .noProgress)) :
    ∃ reported pass, r = .worked reported pass ∧ pass.ending = .finished ∧ pass.applied = [] := by
  cases r with
  | cancelled | unjudged | clean => cases stops
  | worked reported pass =>
    cases finished : pass.ending with
    | failed f =>
      simp only [Round.ending?, finished] at stops
      cases stops
    | finished =>
      rw [c.ending?_finished reported finished] at stops
      by_cases idle : pass.applied = []
      · exact ⟨reported, pass, rfl, finished, idle⟩
      rw [if_neg idle] at stops
      split at stops
      next => cases stops
      next => split at stops <;> cases stops

/-- The searches of the iterations are greedy and accept their fixes, in order. -/
theorem Trail.chronicle (follows : s.oracle.Follows answers) {xs : List Search}
    (trail : s.Trail left c b xs last ending b') (repeats : b.memo.Repeats answers) :
    ∃ fixes, appliedFixes last.steps = appliedFixes c.steps ++ fixes ∧ s.Chronicle answers c.current fixes xs ∧
      (ending = .stopped .noProgress →
        ∃ x, xs.getLast? = some x ∧ x.text = last.current ∧ x.Barren answers) := by
  induction trail with
  | spent => exact ⟨[], by simp, .nil, nofun⟩
  | @ended _ c _ r _ _ _ _ round stops =>
    obtain ⟨chronicle, barren⟩ := round.chronicle follows repeats
    refine ⟨r.accepted, c.appliedFixes_after r, chronicle, ?_⟩
    rintro rfl
    obtain ⟨reported, pass, rfl, finished, idle⟩ := worked_of_noProgress stops
    exact barren reported pass rfl finished idle
  | @next _ c _ _ _ _ _ _ _ _ round goes _ ih =>
    obtain ⟨chronicle, _⟩ := round.chronicle follows repeats
    obtain ⟨fixes, applied, later, last⟩ := ih (repeats.grows follows round.iterated.grows)
    obtain ⟨reported, pass, rfl, _⟩ := Course.ending?_eq_none goes
    obtain ⟨_, _, _, _, sound⟩ := round.iterated.sound
    refine ⟨pass.applied ++ fixes, ?_, chronicle.append sound.descent later, fun still => ?_⟩
    · rw [applied, c.appliedFixes_after, List.append_assoc]
      rfl
    · obtain ⟨x, atEnd, barren⟩ := last still
      exact ⟨x, by rw [List.getLast?_append, atEnd]; rfl, barren⟩

theorem iterate_chronicle (follows : s.oracle.Follows answers)
    (run : s.iterate left c b = ((last, ending), b')) (repeats : b.memo.Repeats answers) :
    ∃ fixes, appliedFixes last.steps = appliedFixes c.steps ++ fixes ∧
      s.Chronicle answers c.current fixes (s.searchesFrom left c b).1 ∧
      (ending = .stopped .noProgress → ∃ x, (s.searchesFrom left c b).1.getLast? = some x ∧
        x.text = last.current ∧ x.Barren answers) :=
  (iterate_trail run).chronicle follows repeats

end Iterations

/-- A session whose oracle goes by the text is greedy: the fixes that it accepts are those that its searches
accept, each search on the text that the fixes before it lead to, and each accepts the best of all proposals
for the defects of this text. If the session stops because nothing helps, its last search is about the text
that it hands back, and nothing proposed in it would have improved this text. -/
theorem accepts_best (follows : s.oracle.Follows answers) (repeats : b.memo.Repeats answers) :
    (textsAlong s.text (appliedFixes (s.run b).1.steps)).length =
        (appliedFixes (s.run b).1.steps).length + 1 ∧
      s.Chronicle answers s.text (appliedFixes (s.run b).1.steps) (s.searches b).1 ∧
      ((s.run b).1.stopReason = .noProgress → ∃ x, (s.searches b).1.getLast? = some x ∧
        x.text = (s.run b).1.healed ∧ x.Barren answers) := by
  obtain ⟨_, given, replays⟩ := s.run_replays b
  refine ⟨given ▸ replays.count, ?_⟩
  obtain ⟨c, ending, b₁, iterated, healed, steps, stopped⟩ := run_iterate (Prod.eta (s.run b)).symm
  obtain ⟨fixes, applied, chronicle, barren⟩ := iterate_chronicle follows iterated repeats
  have all : appliedFixes (s.run b).1.steps = fixes := steps ▸ applied
  rw [all, healed]
  exact ⟨chronicle, fun still => barren (stopped .noProgress (by simp) (by simp) still)⟩

/-- On the last stair there is one search, and it accepts the best that is proposed. -/
theorem staircase_accepts_best :
    (staircase "y").Chronicle stairs "y" (appliedFixes ((staircase "y").run (Bench.fresh 0)).1.steps)
        ((staircase "y").searches (Bench.fresh 0)).1 ∧
      (appliedFixes ((staircase "y").run (Bench.fresh 0)).1.steps).length = 1 := by
  refine ⟨?_, by decide +kernel⟩
  exact (accepts_best (staircase_determined "y").follows .empty).2.1

end Session

end Mender
