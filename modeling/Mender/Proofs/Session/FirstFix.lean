import Mender.Proofs.Application
import Mender.Proofs.Proposals
import Mender.Proofs.Session.Determined
import Mender.Proofs.Session.Replay

namespace Mender

variable {ω : Type} {finds : Text → List Defect} {t u : Text}

/-- A walk over fixes for a text accepts the first one that helps. -/
theorem fix?_walkEnd {limit : Limit} (keepable : limit.faultUnlessBlank? = none) {count : Nat}
    (size : count = (finds t).length) (fixes : List Fix) :
    (walkEnd (Answers.judgement (fun t => .ok (finds t)) limit) t count fixes).fix? =
      fixes.find? (Fix.helps finds t) := by
  subst size
  induction fixes with
  | nil => rfl
  | cons f fixes ih =>
    unfold walkEnd at ih ⊢
    rw [List.findSome?_cons, List.find?_cons, Fix.trial, Fix.helps]
    cases f.apply t with
    | error e => exact ih
    | ok u =>
      by_cases unchanged : u = t
      · simp only [unchanged, if_true, Nat.lt_irrefl, decide_false]
        exact ih
      · simp only [if_neg unchanged, Answers.judgement_of_keepable keepable]
        by_cases fewer : (finds u).length < (finds t).length
        · simp only [fewer, decide_true]
          rfl
        · simp only [fewer, decide_false]
          exact ih

namespace Session

/-- A session in which the text decides what the oracle finds and, with the defect, what is proposed. Nothing fails,
and all that is proposed can be written out. -/
structure Decided (s : Session ω) (finds : Text → List Defect) : Prop where
  follows : s.oracle.Follows fun t => .ok (finds t)
  proposes : ∀ g ∈ s.generators, ∀ d t x y, (g.propose d t x).1.fixes = (g.propose d t y).1.fixes
  writes : ∀ g ∈ s.generators, ∀ d t x, ∀ f ∈ (g.propose d t x).1.fixes, f.Writable
  quiet : ∀ w, (s.atRanking w).1 = none
  judges : s.oracleLimit.faultUnlessBlank? = none

/-- What is proposed for the defects that are found in a text, at some desk. -/
def proposed (s : Session ω) (finds : Text → List Defect) (t : Text) (x : Desk ω) : List Fix :=
  (Generator.fixesForAll s.generators s.generatorLimit t (Defect.prioritize (finds t)) x).1

/-- Nothing is proposed for a clean text. -/
theorem first_of_clean {s : Session ω} {x : Desk ω} (clean : finds t = []) :
    (rankFixes (s.proposed finds t x)).find? (Fix.helps finds t) = none := by
  rw [proposed, clean, Defect.prioritize_eq_nil_iff.mpr rfl]
  have none : rankFixes [] = [] := by simp [rankFixes, bySureness, firstByKey]
  exact congrArg (List.find? _) none

/-- Whatever is proposed for a text leads to one other text, which has fewer defects. -/
structure Leads (s : Session ω) (finds : Text → List Defect) (x : Desk ω) (t u : Text) : Prop where
  some : s.proposed finds t x ≠ []
  edits : ∀ f ∈ s.proposed finds t x, f.edits ≠ []
  applies : ∀ f ∈ s.proposed finds t x, f.apply t = .ok u
  fewer : (finds u).length < (finds t).length

namespace Decided

variable {s : Session ω} {defects : List Defect} {b b' : Bench ω} {x : Desk ω} {r : Round}

theorem proposed_eq (decided : s.Decided finds) (t : Text) (x y : Desk ω) :
    s.proposed finds t x = s.proposed finds t y := by
  have append {a b c e : List Fix} (first : a = b) (second : c = e) : a ++ c = b ++ e := by rw [first, second]
  have each (d : Defect) : Couples (fun _ _ : Desk ω => True) Eq
      (Generator.fixesForDefect s.generators s.generatorLimit d t)
      (Generator.fixesForDefect s.generators s.generatorLimit d t) :=
    Generator.fixesForDefect_couples rfl append fun g member =>
      Generator.fixes_couples rfl (decided.proposes g member d t)
  exact (Generator.fixesForAll_couples rfl append each x y trivial).1

theorem writable_proposed (decided : s.Decided finds) (t : Text) (x : Desk ω) :
    ∀ f ∈ s.proposed finds t x, f.Writable := by
  intro f member
  rw [proposed, Generator.fixesForAll_eq] at member
  obtain ⟨d, _, g, working, y, offered⟩ := Generator.exists_of_mem_proposals member
  exact decided.writes g working d t y f offered

/-- A verdict that is had is what the oracle finds, and it repeats. -/
theorem found_eq (decided : s.Decided finds) {found : List Defect} (repeats : b.memo.Repeats fun t => .ok (finds t))
    (judging : s.verdict t b = (.ok found, b')) : found = finds t ∧ b'.memo.Repeats fun t => .ok (finds t) := by
  have later := repeats.grows decided.follows (verdict_grows judging)
  have answer := later _ _ (knows_of_verdict judging).verdict
  exact ⟨(Except.ok.inj answer).symm, later⟩

/-- A search accepts the first ranked fix that helps. -/
theorem fix?_searched (decided : s.Decided finds) {result : Except Fault (Walk defects.length)}
    (search : s.Searched t defects b result b') (ordered : defects = Defect.prioritize (finds t))
    (repeats : b.memo.Repeats fun t => .ok (finds t)) (x : Desk ω) :
    ∃ walk, result = .ok walk ∧ walk.fix? = (rankFixes (s.proposed finds t x)).find? (Fix.helps finds t) := by
  have size : defects.length = (finds t).length := by rw [ordered, Defect.length_prioritize]
  have candidates : (s.candidates defects t b).1 = s.proposed finds t x := by
    rw [ordered]
    exact decided.proposed_eq t b.desk x
  rcases search.chosen decided.follows repeats with ⟨w, f, started, _⟩ | chosen
  · rw [decided.quiet w] at started
    cases started
  · rw [candidates, choose, rankFixes?_of_writable (decided.writable_proposed t x)] at chosen
    exact ⟨_, chosen, fix?_walkEnd decided.judges size _⟩

/-- The first fix that a pass accepts is the first ranked one that helps its text. -/
theorem head?_accepting (decided : s.Decided finds) {reported : List Defect} {pass : Pass}
    (accepting : s.Accepting reported t defects b pass b') (ordered : defects = Defect.prioritize (finds t))
    (repeats : b.memo.Repeats fun t => .ok (finds t)) (x : Desk ω) :
    pass.applied.head? = (rankFixes (s.proposed finds t x)).find? (Fix.helps finds t) := by
  cases accepting with
  | clean => rw [first_of_clean (Defect.prioritize_eq_nil_iff.mp ordered.symm), List.head?_nil]
  | unranked _ search =>
    obtain ⟨_, same, _⟩ := decided.fix?_searched search ordered repeats x
    cases same
  | unjudged _ search | exhausted _ search | fresh search | again search =>
    obtain ⟨_, same, first⟩ := decided.fix?_searched search ordered repeats x
    cases same
    exact first

/-- The first fix that an iteration accepts is the first ranked one that helps its text. -/
theorem head?_iterated (decided : s.Decided finds) (iterated : s.Iterated t b r b')
    (going : s.cancelled b.desk.world = false) (repeats : b.memo.Repeats fun t => .ok (finds t)) (x : Desk ω) :
    r.accepted.head? = (rankFixes (s.proposed finds t x)).find? (Fix.helps finds t) := by
  cases iterated with
  | cancelled stop =>
    rw [going] at stop
    cases stop
  | unjudged _ judging =>
    obtain ⟨w, trouble, failed⟩ := (Bench.verdict_looked judging).trouble decided.judges
    rw [decided.follows] at failed
    cases failed
  | clean _ judging =>
    rw [first_of_clean (decided.found_eq repeats judging).1.symm]
    rfl
  | worked _ judging _ same accepting =>
    obtain ⟨found, later⟩ := decided.found_eq repeats judging
    exact decided.head?_accepting accepting (congrArg Defect.prioritize found) (same ▸ later) x

/-- The first fix that the iterations accept, if the first of them is not cancelled. -/
theorem head?_iterating (decided : s.Decided finds) {left : Nat} {c last : Course} {rounds : List Round}
    {ending : Ending} (iterating : s.Iterating left c b rounds last ending b') (some : left ≠ 0)
    (none : appliedFixes c.steps = []) (going : s.cancelled b.desk.world = false)
    (repeats : b.memo.Repeats fun t => .ok (finds t)) (x : Desk ω) :
    (appliedFixes last.steps).head? =
      (rankFixes (s.proposed finds c.current x)).find? (Fix.helps finds c.current) := by
  cases iterating with
  | spent => exact (some rfl).elim
  | ended iterated =>
    rw [Course.appliedFixes_after, none, List.nil_append]
    exact decided.head?_iterated iterated going repeats x
  | next iterated goes rest =>
    have first := decided.head?_iterated iterated going repeats x
    obtain ⟨more, later⟩ := rest.appliedFixes_prefix
    obtain ⟨_, _, rfl, _, accepted, _⟩ := Course.ending?_eq_none goes
    rw [← later, Course.appliedFixes_after, none, List.nil_append]
    exact (List.head?_append_of_ne_nil _ accepted).trans first

theorem search_of_leads (decided : s.Decided finds) (leads : s.Leads finds x t u)
    {result : Except Fault (Walk defects.length)} (search : s.Searched t defects b result b')
    (ordered : defects = Defect.prioritize (finds t)) (repeats : b.memo.Repeats fun t => .ok (finds t)) :
    ∃ fix fewer, result = .ok (.accepted fix u (finds u) fewer) := by
  obtain ⟨walk, rfl, first⟩ := decided.fix?_searched search ordered repeats x
  obtain ⟨f, rest, ranked⟩ := List.exists_cons_of_ne_nil fun none => leads.some (eq_nil_of_rankFixes none leads.edits)
  have member : f ∈ s.proposed finds t x := mem_of_mem_rankFixes (ranked ▸ List.mem_cons_self)
  have helps : f.helps finds t = true := by
    rw [Fix.helps, leads.applies f member]
    exact decide_eq_true leads.fewer
  rw [ranked, List.find?_cons_of_pos helps] at first
  cases walk with
  | exhausted | failed => cases first
  | accepted fix healed after fewer =>
    obtain rfl : fix = f := Option.some.inj first
    obtain ⟨applied, known⟩ := search.accepted
    rw [leads.applies fix member] at applied
    cases applied
    have answer := repeats.grows decided.follows search.grows _ _ known
    cases answer
    exact ⟨fix, fewer, rfl⟩

/-- A pass takes one fix if what is proposed leads to a text that is clean or has a defect which was not reported. -/
theorem pass_of_leads (decided : s.Decided finds) (leads : s.Leads finds x t u) {reported : List Defect} {pass : Pass}
    (accepting : s.Accepting reported t defects b pass b') (ordered : defects = Defect.prioritize (finds t))
    (repeats : b.memo.Repeats fun t => .ok (finds t))
    (last : finds u = [] ∨ hasFresh (Defect.prioritize (finds u)) reported = true) :
    ∃ f, pass = ⟨u, Defect.prioritize (finds u), [f], .finished⟩ := by
  have size : defects.length = (finds t).length := by rw [ordered, Defect.length_prioritize]
  cases accepting with
  | clean => exact absurd leads.fewer (size ▸ Nat.not_lt_zero _)
  | unranked _ search | unjudged _ search | exhausted _ search =>
    obtain ⟨_, _, same⟩ := decided.search_of_leads leads search ordered repeats
    cases same
  | fresh search =>
    obtain ⟨_, _, same⟩ := decided.search_of_leads leads search ordered repeats
    cases same
    exact ⟨_, rfl⟩
  | again search seen _ _ rest =>
    obtain ⟨_, _, same⟩ := decided.search_of_leads leads search ordered repeats
    cases same
    rcases last with clean | unseen
    · rw [clean, Defect.prioritize_eq_nil_iff.mpr rfl] at rest ⊢
      cases rest with
      | clean => exact ⟨_, rfl⟩
      | unranked some | unjudged some | exhausted some => exact absurd rfl some
      | @fresh _ _ _ _ _ _ fewer | @again _ _ _ _ _ _ fewer => exact absurd fewer (Nat.not_lt_zero _)
    · rw [seen] at unseen
      cases unseen

/-- An iteration does the same, if it is not cancelled. -/
theorem round_of_leads (decided : s.Decided finds) (leads : s.Leads finds x t u) (iterated : s.Iterated t b r b')
    (going : s.cancelled b.desk.world = false) (repeats : b.memo.Repeats fun t => .ok (finds t))
    (last : finds u = [] ∨ hasFresh (Defect.prioritize (finds u)) (Defect.prioritize (finds t)) = true) :
    ∃ f, r = .worked (Defect.prioritize (finds t)) ⟨u, Defect.prioritize (finds u), [f], .finished⟩ := by
  cases iterated with
  | cancelled stop =>
    rw [going] at stop
    cases stop
  | unjudged _ judging =>
    obtain ⟨w, trouble, failed⟩ := (Bench.verdict_looked judging).trouble decided.judges
    rw [decided.follows] at failed
    cases failed
  | clean _ judging =>
    obtain ⟨found, -⟩ := decided.found_eq repeats judging
    exact absurd leads.fewer (found ▸ Nat.not_lt_zero _)
  | worked _ judging _ same accepting =>
    obtain ⟨rfl, later⟩ := decided.found_eq repeats judging
    obtain ⟨f, rfl⟩ := decided.pass_of_leads leads accepting rfl (same ▸ later) last
    exact ⟨f, rfl⟩

end Decided

/-- The text decides what a session does first, and by itself the same is done: the fixes that are suggested for a
text, when they are applied to it, leave it as it is exactly if the session accepts none, and otherwise the first
of them that is kept is the first that the session accepts. -/
theorem first_fix_agrees {s : Session ω} (decided : s.Decided finds) {limit : Limit}
    (keepable : limit.faultUnlessBlank? = none) (budget : 1 ≤ s.maxIterations) {w : ω}
    (going : s.cancelled w = false) (x : Desk ω) (w' : ω) :
    ∃ suggested healed kept,
      (fixSuggestions s.generators s.generatorLimit s.text (finds s.text) x).1 = .ok suggested ∧
      (applyFixes s.oracle limit s.text suggested (Bench.fresh w')).1 = .ok healed ∧
      (keepFixes s.oracle limit s.text suggested (Bench.fresh w')).1 = .ok (healed, kept) ∧
      (healed = s.text ↔ appliedFixes (s.run (Bench.fresh w)).1.steps = []) ∧
      kept.head? = (appliedFixes (s.run (Bench.fresh w)).1.steps).head? := by
  have writable := decided.writable_proposed s.text x
  have kept := keepFixes_rankFixes decided.follows keepable writable s.text w'
  have first : (appliedFixes (s.run (Bench.fresh w)).1.steps).head? =
      (sift finds s.text (rankFixes (s.proposed finds s.text x))).2.head? := by
    obtain ⟨c, ending, b₁, iterated, _, steps, _⟩ := run_iterate (Prod.eta (s.run (Bench.fresh w))).symm
    have left : s.maxIterations.toNat ≠ 0 := by omega
    rw [steps, head?_sift]
    exact decided.head?_iterating (iterate_iterating iterated) left rfl going .empty x
  refine ⟨rankFixes (s.proposed finds s.text x), _, _, ?_, ?_, kept, ?_, first.symm⟩
  · exact rankFixes?_of_writable writable
  · rw [applyFixes_eq_keepFixes, kept]
    rfl
  · rw [sift_eq_self_iff, ← List.head?_eq_none_iff, ← first, List.head?_eq_none_iff]

end Session

/-- The defects from "w" to "z". -/
def flawsOnStairs (t : Text) : List Defect := (stairs t).toOption.getD []

theorem staircase_decided (start : Text) : (staircase start).Decided flawsOnStairs where
  follows _ _ := rfl
  proposes := by
    intro g member d t x y
    cases List.mem_singleton.mp member
    rfl
  writes := by
    intro g member d t x f offered
    cases List.mem_singleton.mp member
    cases List.mem_singleton.mp offered
    intro e listed u text
    cases List.mem_singleton.mp listed
    cases text
    split_ifs <;> exact Text.isWritable_ofString _
  quiet _ := rfl
  judges := rfl

/-- On the last stair the step that is suggested is the step that is kept, and the step that the session takes. -/
theorem staircase_first_fix_agrees :
    (∃ suggested healed kept,
      (fixSuggestions (staircase "y").generators (staircase "y").generatorLimit "y" (flawsOnStairs "y")
        (Desk.fresh 0)).1 = .ok suggested ∧
      (applyFixes (staircase "y").oracle .none "y" suggested (Bench.fresh 7)).1 = .ok healed ∧
      (keepFixes (staircase "y").oracle .none "y" suggested (Bench.fresh 7)).1 = .ok (healed, kept) ∧
      (healed = "y" ↔ appliedFixes ((staircase "y").run (Bench.fresh 0)).1.steps = []) ∧
      kept.head? = (appliedFixes ((staircase "y").run (Bench.fresh 0)).1.steps).head?) ∧
    (appliedFixes ((staircase "y").run (Bench.fresh 0)).1.steps).length = 1 := by
  refine ⟨?_, by decide +kernel⟩
  exact Session.first_fix_agrees (staircase_decided "y") rfl (by decide) rfl (Desk.fresh 0) 7

theorem prioritize_flawsOnStairs (t : Text) : Defect.prioritize (flawsOnStairs t) = flawsOnStairs t := by
  refine List.mergeSort_of_pairwise ?_
  unfold flawsOnStairs stairs
  split_ifs <;> decide

/-- From each stair below the top all that is proposed is a step to the next one. -/
theorem staircase_leads (start : Text) {t u : Text} (next : t = "x" ∧ u = "y" ∨ t = "y" ∧ u = "z") :
    (staircase start).Leads flawsOnStairs (Desk.fresh 0) t u := by
  have proposed : ∃ f : Fix, ∃ n, (staircase start).proposed flawsOnStairs t (Desk.fresh 0) = List.replicate (n + 1) f ∧
      f.edits ≠ [] ∧ f.apply t = .ok u := by
    rw [Session.proposed, prioritize_flawsOnStairs]
    rcases next with ⟨rfl, rfl⟩ | ⟨rfl, rfl⟩
    · exact ⟨_, 1, rfl, by decide, by rfl⟩
    · exact ⟨_, 0, rfl, by decide, by rfl⟩
  obtain ⟨f, n, all, edits, applies⟩ := proposed
  have same : ∀ g ∈ (staircase start).proposed flawsOnStairs t (Desk.fresh 0), g = f := fun g member =>
    List.eq_of_mem_replicate (all ▸ member)
  refine ⟨by rw [all]; nofun, fun g member => same g member ▸ edits, fun g member => same g member ▸ applies, ?_⟩
  rcases next with ⟨rfl, rfl⟩ | ⟨rfl, rfl⟩ <;> decide

/-- An iteration on a stair takes the step to the next one, which has a new defect unless it is the last. -/
theorem staircase_takes (start : Text) {t u : Text} (next : t = "x" ∧ u = "y" ∨ t = "y" ∧ u = "z") {r : Round}
    {b b' : Bench Nat} (iterated : (staircase start).Iterated t b r b')
    (repeats : b.memo.Repeats fun t => .ok (flawsOnStairs t)) :
    ∃ f, r = .worked (flawsOnStairs t) ⟨u, flawsOnStairs u, [f], .finished⟩ := by
  have last : flawsOnStairs u = [] ∨
      hasFresh (Defect.prioritize (flawsOnStairs u)) (Defect.prioritize (flawsOnStairs t)) = true := by
    simp only [prioritize_flawsOnStairs]
    rcases next with ⟨rfl, rfl⟩ | ⟨rfl, rfl⟩
    · exact Or.inr (by decide)
    · exact Or.inl rfl
  have taken := (staircase_decided start).round_of_leads (staircase_leads start next) iterated rfl repeats last
  simpa only [prioritize_flawsOnStairs] using taken

/-- Down from "x" the second stair has a new defect, so that the session takes two iterations. -/
theorem staircase_iterating {left : Nat} {rounds : List Round} {last : Course} {ending : Ending} {b b' : Bench Nat}
    (iterating : (staircase "x").Iterating (left + 2) ⟨"x", 0, []⟩ b rounds last ending b')
    (repeats : b.memo.Repeats fun t => .ok (flawsOnStairs t)) :
    ∃ first second, last =
      ⟨"z", 2, [.record 1 (flawsOnStairs "x") [first], .record 2 (flawsOnStairs "y") [second]]⟩ ∧
        ending = .stopped .converged := by
  cases iterating with
  | ended iterated stops =>
    obtain ⟨f, rfl⟩ := staircase_takes "x" (.inl ⟨rfl, rfl⟩) iterated repeats
    cases stops
  | next iterated goes rest =>
    obtain ⟨f, rfl⟩ := staircase_takes "x" (.inl ⟨rfl, rfl⟩) iterated repeats
    have later := repeats.grows (staircase_decided "x").follows iterated.grows
    cases rest with
    | next iterated goes =>
      obtain ⟨g, rfl⟩ := staircase_takes "x" (.inr ⟨rfl, rfl⟩) iterated later
      cases goes
    | ended iterated stops =>
      obtain ⟨g, rfl⟩ := staircase_takes "x" (.inr ⟨rfl, rfl⟩) iterated later
      cases stops
      exact ⟨f, g, rfl, rfl⟩

/-- The session that starts on "x" counts three defects in its two steps, and takes two fixes. -/
theorem staircase_ends :
    let o := ((staircase "x").run (Bench.fresh 0)).1
    o.success = true ∧ o.final = some [] ∧ o.totalDefects = 3 ∧ o.totalFixes = 2 ∧ o.steps.length = 2 := by
  have ran := (staircase "x").run_ran (Bench.fresh 0)
  have decided := staircase_decided "x"
  generalize ((staircase "x").run (Bench.fresh 0)).1 = o at *
  cases ran with
  | failed iterating =>
    obtain ⟨_, _, _, same⟩ := staircase_iterating iterating .empty
    cases same
  | unjudged _ judging =>
    obtain ⟨_, _, failed⟩ := (Bench.verdict_looked judging).trouble rfl
    cases failed
  | finished iterating judging =>
    obtain ⟨_, _, rfl, -⟩ := staircase_iterating iterating .empty
    obtain ⟨rfl, -⟩ := decided.found_eq (Memo.Repeats.empty.grows decided.follows iterating.grows) judging
    exact ⟨rfl, rfl, rfl, rfl, rfl⟩

end Mender
