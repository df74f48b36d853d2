import Mender.Proofs.Descent
import Mender.Proofs.Session.Search

namespace Mender

theorem hasFresh_eq_true_iff {remaining reported : List Defect} : hasFresh remaining reported = true ↔
    ∃ d ∈ remaining, d.identity ∉ reported.map Defect.identity := by
  simp only [hasFresh, List.any_eq_true, decide_eq_true_eq]

/-- What a pass has done to a text, by the verdicts of a memo. -/
structure Pass.Sound (m : Memo) (t : Text) (pass : Pass) : Prop where
  descent : Descent m t pass.applied pass.current
  judged : ∃ found, m.find? pass.current = some found ∧ pass.remaining = Defect.prioritize found

namespace Session

variable {ω : Type} {s : Session ω}

/-- The accepting of fixes as it runs, from a text with its defects to the end of the pass. The pass
lists only the fixes that were accepted on the way. -/
inductive Accepting (s : Session ω) (reported : List Defect) :
    Text → List Defect → Bench ω → Pass → Bench ω → Prop
  | clean {t b} : Accepting s reported t [] b ⟨t, [], [], .finished⟩ b
  | unranked {t defects b f b'} : defects ≠ [] → s.Searched t defects b (.error f) b' →
      Accepting s reported t defects b ⟨t, defects, [], .failed (.unexpected f)⟩ b'
  | unjudged {t defects b e b'} : defects ≠ [] → s.Searched t defects b (.ok (.failed e)) b' →
      Accepting s reported t defects b ⟨t, defects, [], .failed (.oracle e)⟩ b'
  | exhausted {t defects b b'} : defects ≠ [] → s.Searched t defects b (.ok .exhausted) b' →
      Accepting s reported t defects b ⟨t, defects, [], .finished⟩ b'
  | fresh {t defects b fix healed after fewer b₁ b'} :
      s.Searched t defects b (.ok (.accepted fix healed after fewer)) b₁ →
      hasFresh (Defect.prioritize after) reported = true → b'.memo = b₁.memo →
      b'.desk.world = b₁.desk.world →
      Accepting s reported t defects b ⟨healed, Defect.prioritize after, [fix], .finished⟩ b'
  | again {t defects b fix healed after fewer b₁ b₂ pass b'} :
      s.Searched t defects b (.ok (.accepted fix healed after fewer)) b₁ →
      hasFresh (Defect.prioritize after) reported = false → b₂.memo = b₁.memo →
      b₂.desk.world = b₁.desk.world →
      Accepting s reported healed (Defect.prioritize after) b₂ pass b' →
      Accepting s reported t defects b { pass with applied := fix :: pass.applied } b'

theorem acceptFixes_accepting {iteration : Nat} {reported defects : List Defect} {t : Text}
    {applied : List Fix} {b b' : Bench ω} {pass : Pass}
    (run : s.acceptFixes iteration reported t defects applied b = (pass, b')) :
    ∃ fixes, pass.applied = applied ++ fixes ∧
      s.Accepting reported t defects b { pass with applied := fixes } b' := by
  induction size : defects.length using Nat.strongRecOn generalizing t defects applied b with
  | _ n ih =>
    subst size
    unfold acceptFixes at run
    by_cases none : defects = []
    · subst none
      cases run
      exact ⟨[], by simp, .clean⟩
    rw [if_neg (by simpa using none)] at run
    obtain ⟨found, b₁, proposed, run⟩ := StateM.bind_eq_iff.mp run
    obtain ⟨fixes?, b₂, ranked, run⟩ := StateM.bind_eq_iff.mp run
    cases fixes? with
    | error f =>
      cases run
      exact ⟨[], by simp, .unranked none (.unranked proposed ranked)⟩
    | ok fixes =>
      obtain ⟨walk, b₃, walked, run⟩ := StateM.bind_eq_iff.mp run
      cases walk with
      | failed e =>
        cases run
        exact ⟨[], by simp, .unjudged none (.walked proposed ranked walked)⟩
      | exhausted =>
        cases run
        exact ⟨[], by simp, .exhausted none (.walked proposed ranked walked)⟩
      | accepted fix healed after fewer =>
        obtain ⟨_, b₄, noted, run⟩ := StateM.bind_eq_iff.mp run
        cases noted
        cases unseen : hasFresh (Defect.prioritize after) reported with
        | true =>
          rw [if_pos unseen] at run
          cases run
          exact ⟨[fix], rfl, .fresh (.walked proposed ranked walked) unseen rfl rfl⟩
        | false =>
          rw [if_neg (by simp [unseen])] at run
          have smaller : (Defect.prioritize after).length < defects.length := by
            rw [Defect.length_prioritize]
            exact fewer
          obtain ⟨later, split, rest⟩ := ih _ smaller run rfl
          refine ⟨fix :: later, by rw [split, List.append_assoc, List.singleton_append], ?_⟩
          refine .again (.walked proposed ranked walked) unseen ?_ ?_ rest
          · rfl
          · rfl

namespace Accepting

variable {reported defects : List Defect} {t : Text} {b b' : Bench ω} {pass : Pass}

theorem grows (accepting : s.Accepting reported t defects b pass b') :
    Memo.Grows s.oracle b.memo b'.memo := by
  induction accepting with
  | clean => exact .refl
  | unranked _ search | unjudged _ search | exhausted _ search => exact search.grows
  | fresh search _ same => exact same ▸ search.grows
  | again search _ same _ _ ih => exact search.grows.trans (same ▸ ih)

theorem sound {found : List Defect} (accepting : s.Accepting reported t defects b pass b')
    (known : b.memo.find? t = some found) (ordered : defects = Defect.prioritize found) :
    pass.Sound b'.memo t := by
  induction accepting generalizing found with
  | clean => exact ⟨.stay, found, known, ordered⟩
  | unranked _ search | unjudged _ search | exhausted _ search =>
    exact ⟨.stay, found, search.grows.kept known, ordered⟩
  | @fresh t defects b fix healed after fewer b₁ b' search _ same _ =>
    obtain ⟨applied, atHealed⟩ := search.accepted
    rw [ordered, Defect.length_prioritize] at fewer
    rw [same]
    exact ⟨.accept applied ⟨found, after, search.grows.kept known, atHealed, fewer⟩ .stay,
      after, atHealed, rfl⟩
  | @again t defects b fix healed after fewer b₁ b₂ pass b' search _ same _ rest ih =>
    obtain ⟨applied, atHealed⟩ := search.accepted
    rw [ordered, Defect.length_prioritize] at fewer
    have later := same ▸ rest.grows
    obtain ⟨descent, judged⟩ := ih (same ▸ atHealed) rfl
    have step : Fewer b₁.memo t healed :=
      ⟨found, after, search.grows.kept known, atHealed, fewer⟩
    exact ⟨.accept applied (step.mono later) descent, judged⟩

/-- A pass that accepts a fix accepts one in its first search. -/
theorem first_search (accepting : s.Accepting reported t defects b pass b') (some : pass.applied ≠ []) :
    ∃ fix healed after fewer b₁, s.Searched t defects b (.ok (.accepted fix healed after fewer)) b₁ := by
  cases accepting with
  | clean | unranked | unjudged | exhausted => exact (some rfl).elim
  | fresh search | again search => exact ⟨_, _, _, _, _, search⟩

/-- A pass ends on a clean text, on one with a defect that it did not report, or with a search that accepts
nothing for the text. -/
theorem last_search (accepting : s.Accepting reported t defects b pass b') :
    pass.remaining = [] ∨ (pass.ending = .finished ∧ hasFresh pass.remaining reported = true) ∨
      ∃ b₁ result, Memo.Grows s.oracle b.memo b₁.memo ∧
        s.Searched pass.current pass.remaining b₁ result b' ∧
        (∀ fix healed after fewer, result ≠ .ok (.accepted fix healed after fewer)) ∧
        (pass.ending = .finished → result = .ok .exhausted) := by
  induction accepting with
  | clean => exact Or.inl rfl
  | fresh _ unseen => exact Or.inr (Or.inl ⟨rfl, unseen⟩)
  | @unranked t defects b f b' _ search =>
    exact Or.inr (Or.inr ⟨b, _, .refl, search, fun _ _ _ _ => nofun, nofun⟩)
  | @unjudged t defects b f b' _ search =>
    exact Or.inr (Or.inr ⟨b, _, .refl, search, fun _ _ _ _ => nofun, nofun⟩)
  | @exhausted t defects b b' _ search =>
    exact Or.inr (Or.inr ⟨b, _, .refl, search, fun _ _ _ _ => nofun, fun _ => rfl⟩)
  | again search _ same _ _ ih =>
    rcases ih with clean | unseen | ⟨b₁, result, later, last⟩
    · exact Or.inl clean
    · exact Or.inr (Or.inl unseen)
    · exact Or.inr (Or.inr ⟨b₁, result, search.grows.trans (same ▸ later), last⟩)

end Accepting

end Session

end Mender
