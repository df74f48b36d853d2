import Mender.Proofs.Ranking.Order
import Mender.Proofs.Session.Choice
import Mender.Proofs.Session.Consistency
import Mender.Proofs.Session.Replay

namespace Mender

/-- The texts that a session is given, what its oracle may find in them, and what is to come of each. -/
structure Task where
  fits : Text → Prop
  finds : Text → List Defect → Prop
  goal : Text → Text

namespace Task

/-- From a text and its defects to another text and what is left of them: one defect less, and nothing that was
not found already, wherever it stood. -/
structure Step (task : Task) (t : Text) (found : List Defect) (u : Text) (after : List Defect) : Prop where
  fits : task.fits u
  finds : task.finds u after
  goal : task.goal u = task.goal t
  fewer : after.length + 1 = found.length
  foreseen : after.map Defect.identity ⊆ found.map Defect.identity

/-- The fix leads one step on, whatever the oracle then finds of what it may find. -/
def Advances (task : Task) (t : Text) (found : List Defect) (f : Fix) : Prop :=
  f.Writable ∧ ∃ u, f.apply t = .ok u ∧ task.fits u ∧ ∀ after, task.finds u after → task.Step t found u after

theorem Advances.edits_ne_nil {task : Task} {t : Text} {found : List Defect} {f : Fix}
    (advances : task.Advances t found f) (finds : task.finds t found) : f.edits ≠ [] := by
  intro none
  obtain ⟨_, u, applied, _, step⟩ := advances
  rw [Fix.apply, none, applyEdits_nil] at applied
  cases applied
  have fewer := (step found finds).fewer
  omega

end Task

/-- What the memo has about the texts of a task is what may be found in them. -/
def Memo.Finds (m : Memo) (task : Task) : Prop :=
  ∀ t found, task.fits t → m.find? t = some found → task.finds t found

/-- The pass has come to the goal, by so many fixes. -/
structure Pass.Reaches (task : Task) (t : Text) (count : Nat) (pass : Pass) : Prop where
  finished : pass.ending = .finished
  clean : pass.remaining = []
  fits : task.fits pass.current
  goal : pass.current = task.goal t
  fixes : pass.applied.length = count

/-- The course has come to the goal in its first iteration, by so many fixes. -/
structure Course.Reaches (task : Task) (t : Text) (count : Nat) (c : Course) : Prop where
  iterations : c.iterations = 1
  fits : task.fits c.current
  goal : c.current = task.goal t
  fixes : (appliedFixes c.steps).length = count

/-- The text is healed in the first iteration, by so many fixes. -/
structure Outcome.AtOnce (healed : Text) (count : Nat) (o : Outcome) : Prop where
  success : o.success = true
  converged : o.stopReason = .converged
  iterations : o.iterations = 1
  healed : o.healed = healed
  fixes : (appliedFixes o.steps).length = count
  total : o.totalFixes = count

variable {ω : Type} {task : Task}

theorem ne_nil_of_fewer {found after defects : List Defect} (fewer : after.length < defects.length)
    (ordered : defects = Defect.prioritize found) : found ≠ [] := by
  rintro rfl
  rw [ordered, Defect.length_prioritize] at fewer
  exact absurd fewer (Nat.not_lt_zero _)

namespace Session

/-- The oracle of the session answers about the texts of the task, its rankings start without a fault, and for
every text with defects it is proposed fixes, each of which advances the task. -/
structure UpTo (s : Session ω) (task : Task) : Prop where
  keepable : s.oracleLimit.faultUnlessBlank? = none
  quiet : ∀ w, (s.atRanking w).1 = none
  judged : ∀ t w, task.fits t → ∃ found, (s.oracle.judge t w).1 = .ok found ∧ task.finds t found
  done : ∀ t, task.fits t → task.finds t [] → task.goal t = t
  proposed : ∀ {t found}, task.fits t → task.finds t found → found ≠ [] → ∀ b,
    (s.candidates (Defect.prioritize found) t b).1 ≠ []
  advances : ∀ {t found}, task.fits t → task.finds t found → ∀ b,
    ∀ f ∈ (s.candidates (Defect.prioritize found) t b).1, task.Advances t found f

namespace UpTo

variable {s : Session ω} {t : Text} {found defects : List Defect} {b b' : Bench ω} {r : Round}

theorem finds_of_judge (able : s.UpTo task) (fits : task.fits t) {w : ω}
    (answer : (s.oracle.judge t w).1 = .ok found) : task.finds t found := by
  obtain ⟨other, same, finds⟩ := able.judged t w fits
  rw [answer] at same
  cases same
  exact finds

theorem never_troubled (able : s.UpTo task) (fits : task.fits t) {w : ω} {trouble : Trouble} :
    (s.oracle.judge t w).1 ≠ .error trouble := by
  obtain ⟨_, same, _⟩ := able.judged t w fits
  rw [same]
  exact nofun

theorem memo_grows (able : s.UpTo task) {later : Memo} (memo : b.memo.Finds task)
    (grows : Memo.Grows s.oracle b.memo later) : later.Finds task := by
  intro t found fits known
  rcases grows.answered known with earlier | ⟨w, answer⟩
  · exact memo t found fits earlier
  · exact able.finds_of_judge fits answer

theorem verdict_ok (able : s.UpTo task) (fits : task.fits t) {judged : Except OracleError (List Defect)}
    (run : s.verdict t b = (judged, b')) : ∃ found, judged = .ok found := by
  have looked := Bench.verdict_looked run
  cases judged with
  | ok found => exact ⟨found, rfl⟩
  | error e =>
    obtain ⟨w, trouble, failed⟩ := looked.trouble able.keepable
    exact (able.never_troubled fits failed).elim

/-- A walk over fixes that all advance the task accepts the first one. -/
theorem walk_accepts (able : s.UpTo task) (finds : task.finds t found) {m : Memo} (memo : m.Finds task)
    {count : Nat} (size : count = found.length) {fixes : List Fix} {walk : Walk count} (some : fixes ≠ [])
    (advance : ∀ f ∈ fixes, task.Advances t found f) (walked : s.Walked m t count fixes walk) :
    ∃ fix healed after fewer, walk = .accepted fix healed after fewer ∧ task.Step t found healed after := by
  obtain ⟨f, rest, rfl⟩ := List.exists_cons_of_ne_nil some
  obtain ⟨_, u, applied, fits', step⟩ := advance f List.mem_cons_self
  cases walked with
  | passed useless =>
    -- A fix is passed only if it leaves as many defects, and the first one leaves fewer.
    have changed : u ≠ t := by
      rintro rfl
      have fewer := (step found finds).fewer
      omega
    obtain ⟨after, known, many⟩ := useless u applied changed
    have fewer := (step after (memo u after fits' known)).fewer
    omega
  | @accepted _ _ v after fewer applied' _ known =>
    rw [applied] at applied'
    cases applied'
    exact ⟨f, u, after, fewer, rfl, step after (memo u after fits' known)⟩
  | failed applied' _ trouble =>
    rw [applied] at applied'
    cases applied'
    obtain ⟨w, _, failed⟩ := trouble able.keepable
    exact (able.never_troubled fits' failed).elim

/-- A search for a text with defects accepts a fix. -/
theorem search_accepts (able : s.UpTo task) {result : Except Fault (Walk defects.length)}
    (search : s.Searched t defects b result b') (ordered : defects = Defect.prioritize found)
    (unclean : found ≠ []) (fits : task.fits t) (finds : task.finds t found) (memo : b.memo.Finds task) :
    ∃ fix healed after fewer, result = .ok (.accepted fix healed after fewer) ∧
      task.Step t found healed after := by
  have size : defects.length = found.length := by rw [ordered, Defect.length_prioritize]
  have advance := able.advances fits finds b
  have some := able.proposed fits finds unclean b
  rw [← ordered] at advance some
  have ranks := rankFixes?_of_writable fun f member => (advance f member).1
  cases search with
  | unranked proposed ranked =>
    rw [proposed] at ranks
    rcases ranked_cases ranked with ⟨w, f, started, _⟩ | same
    · rw [able.quiet w] at started
      cases started
    · rw [ranks] at same
      cases same
  | @walked candidates _ fixes _ walk _ proposed ranked walked =>
    rw [proposed] at ranks advance some
    have fixes_eq : fixes = rankFixes candidates := by
      rcases ranked_cases ranked with ⟨_, _, _, same⟩ | same
      · cases same
      · exact Except.ok.inj (same.trans ranks)
    have edited := fun f member => (advance f member).edits_ne_nil finds
    have ranked_some : fixes ≠ [] := fun none => some (eq_nil_of_rankFixes (fixes_eq ▸ none) edited)
    have grown := (Searched.walked proposed ranked walked).grows
    obtain ⟨fix, healed, after, fewer, rfl, step⟩ := able.walk_accepts finds (able.memo_grows memo grown) size
      ranked_some (fun f member => advance f (mem_of_mem_rankFixes (fixes_eq ▸ member)))
      (firstImproving_walked walked).2
    exact ⟨fix, healed, after, fewer, rfl, step⟩

/-- A pass over defects that were reported takes them all away, one fix for each. -/
theorem pass_reaches (able : s.UpTo task) {reported : List Defect} {pass : Pass}
    (accepting : s.Accepting reported t defects b pass b') (ordered : defects = Defect.prioritize found)
    (fits : task.fits t) (finds : task.finds t found) (memo : b.memo.Finds task)
    (foreseen : found.map Defect.identity ⊆ reported.map Defect.identity) :
    pass.Reaches task t found.length := by
  -- What is found stays among what was reported, so no step can bring up anything new and end the pass early.
  induction accepting generalizing found with
  | clean =>
    cases Defect.prioritize_eq_nil_iff.mp ordered.symm
    exact ⟨rfl, rfl, fits, (able.done _ fits finds).symm, rfl⟩
  | unranked some search | unjudged some search | exhausted some search =>
    have unclean := fun none => some (ordered.trans (Defect.prioritize_eq_nil_iff.mpr none))
    obtain ⟨_, _, _, _, same, _⟩ := able.search_accepts search ordered unclean fits finds memo
    cases same
  | @fresh _ _ _ _ _ _ fewer _ _ search unseen =>
    obtain ⟨_, _, _, _, same, step⟩ :=
      able.search_accepts search ordered (ne_nil_of_fewer fewer ordered) fits finds memo
    cases same
    obtain ⟨d, left, new⟩ := hasFresh_eq_true_iff.mp unseen
    exact (new (foreseen (step.foreseen (List.mem_map_of_mem (List.mem_mergeSort.mp left))))).elim
  | @again _ _ _ _ _ _ fewer _ _ _ _ search _ same _ _ ih =>
    obtain ⟨_, _, _, _, accepted, step⟩ :=
      able.search_accepts search ordered (ne_nil_of_fewer fewer ordered) fits finds memo
    cases accepted
    have later := ih rfl step.fits step.finds (same ▸ able.memo_grows memo search.grows)
      (List.Subset.trans step.foreseen foreseen)
    refine ⟨later.finished, later.clean, later.fits, later.goal.trans step.goal, ?_⟩
    rw [List.length_cons, later.fixes, step.fewer]

/-- The first iteration, if it is not cancelled, takes all defects away. -/
theorem round_reaches (able : s.UpTo task) {c : Course} (start : c = ⟨s.text, 0, []⟩)
    (iterated : s.Iterated c.current b r b') (fits : task.fits s.text) (memo : b.memo.Finds task)
    (going : s.cancelled b.desk.world = false) :
    ∃ found, task.finds s.text found ∧
      r.ending? s.maxIterations (c.after r).steps = some (.stopped .converged) ∧
      (c.after r).Reaches task s.text found.length := by
  subst start
  -- A verdict is remembered or an answer, so it is one that the task allows.
  have finds_of {found : List Defect} {b₁ : Bench ω} (judging : s.verdict s.text b = (.ok found, b₁)) :
      b₁.memo.Finds task ∧ task.finds s.text found := by
    have later := able.memo_grows memo (verdict_grows judging)
    exact ⟨later, later _ _ fits (knows_of_verdict judging).verdict⟩
  cases iterated with
  | cancelled stop =>
    rw [going] at stop
    cases stop
  | unjudged _ judging =>
    obtain ⟨_, same⟩ := able.verdict_ok fits judging
    cases same
  | clean _ judging =>
    have finds := (finds_of judging).2
    exact ⟨[], finds, rfl, rfl, fits, (able.done _ fits finds).symm, rfl⟩
  | @worked found _ _ pass _ _ judging unclean same accepting =>
    obtain ⟨later, finds⟩ := finds_of judging
    have foreseen : found.map Defect.identity ⊆ (Defect.prioritize found).map Defect.identity :=
      List.map_subset _ fun d member => List.mem_mergeSort.mpr member
    have reaches := able.pass_reaches accepting rfl fits finds (same ▸ later) foreseen
    have accepted : pass.applied ≠ [] := by
      intro none
      have count := reaches.fixes
      rw [none] at count
      exact unclean (List.length_eq_zero_iff.mp count.symm)
    refine ⟨found, finds, ?_, rfl, reaches.fits, reaches.goal, ?_⟩
    · rw [Course.ending?_finished _ _ reaches.finished, if_neg accepted, if_pos reaches.clean]
    · rw [Course.appliedFixes_after]
      exact reaches.fixes

theorem iterating_reaches (able : s.UpTo task) {left : Nat} {rounds : List Round} {last : Course} {ending : Ending}
    (iterating : s.Iterating left ⟨s.text, 0, []⟩ b rounds last ending b') (some : left ≠ 0)
    (fits : task.fits s.text) (memo : b.memo.Finds task) (going : s.cancelled b.desk.world = false) :
    ∃ found, task.finds s.text found ∧ ending = .stopped .converged ∧ last.Reaches task s.text found.length := by
  cases iterating with
  | spent => exact (some rfl).elim
  | ended iterated stops =>
    obtain ⟨found, finds, converged, reaches⟩ := able.round_reaches rfl iterated fits memo going
    rw [stops] at converged
    exact ⟨found, finds, Option.some.inj converged, reaches⟩
  | next iterated goes =>
    obtain ⟨_, _, converged, _⟩ := able.round_reaches rfl iterated fits memo going
    rw [goes] at converged
    cases converged

/-- A session that is up to a task does it in its first iteration. -/
theorem run_atOnce (able : s.UpTo task) (fits : task.fits s.text) (memo : b.memo.Finds task)
    (budget : 1 ≤ s.maxIterations) (going : s.cancelled b.desk.world = false) :
    ∃ found, task.finds s.text found ∧ (s.run b).1.AtOnce (task.goal s.text) found.length := by
  have consistent := s.run_consistent b
  have replays := (s.run_replays b).2.2
  have ran := s.run_ran b
  have left : s.maxIterations.toNat ≠ 0 := by omega
  generalize (s.run b).1 = o at *
  cases ran with
  | failed iterating =>
    obtain ⟨_, _, same, _⟩ := able.iterating_reaches iterating left fits memo going
    cases same
  | unjudged iterating judging =>
    obtain ⟨_, _, _, reaches⟩ := able.iterating_reaches iterating left fits memo going
    obtain ⟨_, same⟩ := able.verdict_ok reaches.fits judging
    cases same
  | finished iterating judging =>
    obtain ⟨found, finds, same, reaches⟩ := able.iterating_reaches iterating left fits memo going
    cases same
    refine ⟨found, finds, consistent.converged rfl, rfl, congrArg Nat.cast reaches.iterations, reaches.goal,
      reaches.fixes, ?_⟩
    rw [← reaches.fixes]
    exact replays.total

end UpTo

end Session

end Mender
