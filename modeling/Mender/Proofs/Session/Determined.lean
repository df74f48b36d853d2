import Mender.Proofs.Session.Candidates

namespace Mender

variable {ω : Type} {answers : Answers}

/-- The fixes that the generator proposes depend on the defect and the text only, names left aside. -/
def Generator.Determined (g : Generator ω) : Prop :=
  ∀ d t (x y : Desk ω), (g.propose d t x).1.fixes.map Fix.unnamed = (g.propose d t y).1.fixes.map Fix.unnamed

theorem Generator.Determined.fixes_couples {g : Generator ω} (determined : g.Determined) (limit : Limit)
    (d : Defect) (t : Text) : Couples (fun _ _ : Desk ω => True)
      (fun found found' => found.map Fix.unnamed = found'.map Fix.unnamed)
      (g.fixes limit d t) (g.fixes limit d t) :=
  Generator.fixes_couples (by rfl) (determined d t)

/-- What the oracle of the session answers and what its generators propose is decided by the text. -/
structure Session.Determined (answers : Answers) (s : Session ω) : Prop where
  follows : s.oracle.Follows answers
  proposes : ∀ g ∈ s.generators, g.Determined

namespace Session.Determined

variable {s : Session ω} {t : Text} {defects : List Defect} {b b' b₁ b₁' : Bench ω}

theorem fixesForAll_couples (determined : s.Determined answers) (limit : Limit) (t : Text)
    (defects : List Defect) : Couples (fun _ _ : Desk ω => True)
      (fun found found' => found.map Fix.unnamed = found'.map Fix.unnamed)
      (Generator.fixesForAll s.generators limit t defects)
      (Generator.fixesForAll s.generators limit t defects) := by
  have append : ∀ {a b c e : List Fix}, a.map Fix.unnamed = b.map Fix.unnamed →
      c.map Fix.unnamed = e.map Fix.unnamed → (a ++ c).map Fix.unnamed = (b ++ e).map Fix.unnamed := by
    intro a b c e first second
    rw [List.map_append, List.map_append, first, second]
  refine Generator.fixesForAll_couples (by rfl) append fun d => ?_
  exact Generator.fixesForDefect_couples (by rfl) append fun g member =>
    (determined.proposes g member).fixes_couples limit d t

theorem candidates_unnamed (determined : s.Determined answers) (defects : List Defect) (t : Text)
    (b b' : Bench ω) : (s.candidates defects t b).1.map Fix.unnamed =
      (s.candidates defects t b').1.map Fix.unnamed :=
  (determined.fixesForAll_couples s.generatorLimit t defects b.desk b'.desk trivial).1

/-- Two searches for the same text and defects come to the same, unless a ranking fails at its start. -/
theorem search_again (determined : s.Determined answers) {result result' : Except Fault (Walk defects.length)}
    (search : s.Searched t defects b result b₁) (again : s.Searched t defects b' result' b₁')
    (repeats : b.memo.Repeats answers) (repeats' : b'.memo.Repeats answers) :
    (∃ w f, (s.atRanking w).1 = some f ∧ (result = .error f ∨ result' = .error f)) ∨
      result.map Walk.unnamed = result'.map Walk.unnamed := by
  rcases search.chosen determined.follows repeats with ⟨w, f, fault, same⟩ | chosen
  · exact Or.inl ⟨w, f, fault, Or.inl same⟩
  rcases again.chosen determined.follows repeats' with ⟨w, f, fault, same⟩ | chosen'
  · exact Or.inl ⟨w, f, fault, Or.inr same⟩
  rw [chosen, chosen']
  exact Or.inr (Alike.of_unnamed (determined.candidates_unnamed defects t b b')).choose_eq

/-- A pass that begins where a search accepted nothing accepts nothing either, unless that search failed at
the start of its ranking. -/
theorem barren_again (determined : s.Determined answers) {result : Except Fault (Walk defects.length)}
    {reported : List Defect} {pass : Pass} (search : s.Searched t defects b result b₁)
    (accepting : s.Accepting reported t defects b' pass b₁') (repeats : b.memo.Repeats answers)
    (repeats' : b'.memo.Repeats answers)
    (barren : ∀ fix healed after fewer, result ≠ .ok (.accepted fix healed after fewer))
    (ranked : ∀ w f, (s.atRanking w).1 = some f → result ≠ .error f) : pass.applied = [] := by
  refine Decidable.byContradiction fun some => ?_
  obtain ⟨fix, healed, after, fewer, b₂, again⟩ := accepting.first_search some
  rcases determined.search_again search again repeats repeats' with ⟨w, f, fault, failed | failed⟩ | same
  · exact ranked w f fault failed
  · cases failed
  · cases result with
    | error f => cases same
    | ok walk =>
      obtain ⟨named, rfl, _⟩ := Walk.eq_of_unnamed_accepted (Except.ok.inj same)
      exact barren named healed after fewer rfl

/-- An iteration on the text that another one arrived at accepts a fix only if that one came to its end at
a defect that it had not reported. -/
theorem next_accepts (determined : s.Determined answers) {reported reported' : List Defect} {pass pass' : Pass}
    (iterated : s.Iterated t b (.worked reported pass) b₁)
    (next : s.Iterated pass.current b' (.worked reported' pass') b₁') (repeats : b.memo.Repeats answers)
    (repeats' : b'.memo.Repeats answers) (some : pass'.applied ≠ [])
    (ranked : pass.ending = .finished ∨ ∀ w, (s.atRanking w).1 = none) :
    reported' = pass.remaining ∧ pass.ending = .finished ∧ hasFresh pass.remaining reported = true := by
  obtain ⟨_, _, _, _, sound⟩ := iterated.sound
  obtain ⟨rest, known, remaining⟩ := sound.judged
  have answer := repeats.grows determined.follows iterated.grows _ _ known
  cases iterated with
  | @worked found b₂ b₃ _ _ _ judging unclean same accepting =>
    have start := repeats.grows determined.follows ((verdict_grows judging).trans (.of_eq same))
    cases next with
    | @worked found' b₂' b₃' _ _ _ judging' unclean' same' accepting' =>
      have start' := repeats'.grows determined.follows ((verdict_grows judging').trans (.of_eq same'))
      have known' := (Bench.verdict_looked judging').known.2
      have answer' := start' _ _ (same' ▸ known')
      rw [answer] at answer'
      cases answer'
      refine ⟨remaining.symm, ?_⟩
      rw [← remaining] at accepting'
      -- The next pass begins where this one ended, with the defects that remained there.
      rcases accepting.last_search with clean | unseen | ⟨b₄, result, grows, search, barren, finished⟩
      · exact (unclean' (Defect.prioritize_eq_nil_iff.mp (remaining ▸ clean))).elim
      · exact unseen
      · have started : ∀ w f, (s.atRanking w).1 = .some f → result ≠ .error f := by
          rintro w f fault rfl
          rcases ranked with done | never
          · cases finished done
          · rw [never w] at fault
            cases fault
        exact (some (determined.barren_again search accepting' (start.grows determined.follows grows) start'
          barren started)).elim

end Session.Determined

/-- The answers of an oracle that finds fewer defects from "w" to "z". -/
def stairs : Answers := fun t =>
  let flaws (names : List Text) : List Defect := names.map fun name => ⟨name, .error, none, none, none⟩
  .ok (if t = "w" then flaws ["a", "b", "c"] else if t = "x" then flaws ["a", "b"]
    else if t = "y" then flaws ["d"] else [])

/-- A session whose oracle counts its calls, and a generator that knows the next stair. -/
def staircase (start : Text) : Session Nat where
  id := "s"
  text := start
  oracle := fun t calls => (.defects ((stairs t).toOption.getD []), calls + 1)
  generators :=
    [⟨"editor", fun _ t =>
      let next : Text := if t = "w" then "x" else if t = "x" then "y" else "z"
      pure (.ofFixes [⟨none, "take a step", "", [⟨.replace, Position.textStart, none, some next⟩],
        Confidence.zero, .rule⟩])⟩]
  maxIterations := 5
  oracleLimit := .none
  generatorLimit := .none
  manual := ""
  cancelled := fun _ => false
  atRanking := fun w => (none, w)

theorem staircase_determined (start : Text) : (staircase start).Determined stairs where
  follows _ _ := rfl
  proposes := by
    intro g member d t x y
    cases List.mem_singleton.mp member
    rfl

end Mender
