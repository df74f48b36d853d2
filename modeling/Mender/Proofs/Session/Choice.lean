import Mender.Proofs.Session.Search
import Mender.Proofs.Judgement
import Mender.Proofs.Ranking
import Mender.Proofs.Edit

namespace Mender

/-- What verdicts there are on texts. -/
abbrev Verdicts := Text → Except OracleError (List Defect)

namespace Walk

/-- The walk without the name of the fix. -/
def unnamed {count : Nat} : Walk count → Walk count
  | accepted fix healed remaining fewer => accepted fix.unnamed healed remaining fewer
  | exhausted => exhausted
  | failed e => failed e

def fix? {count : Nat} : Walk count → Option Fix
  | accepted fix _ _ _ => some fix
  | exhausted | failed _ => none

theorem eq_of_unnamed_accepted {count : Nat} {walk : Walk count} {fix : Fix} {healed : Text}
    {remaining : List Defect} {fewer : remaining.length < count}
    (same : walk.unnamed = .accepted fix healed remaining fewer) :
    ∃ named, walk = .accepted named healed remaining fewer ∧ named.unnamed = fix := by
  cases walk with
  | accepted named => cases same; exact ⟨named, rfl, rfl⟩
  | exhausted | failed => cases same

theorem eq_of_unnamed_exhausted {count : Nat} {walk : Walk count} (same : walk.unnamed = .exhausted) :
    walk = .exhausted := by
  cases walk with
  | exhausted => rfl
  | accepted | failed => cases same

theorem eq_of_unnamed_failed {count : Nat} {walk : Walk count} {e : OracleError}
    (same : walk.unnamed = .failed e) : walk = .failed e := by
  cases walk with
  | failed => cases same; rfl
  | accepted | exhausted => cases same

end Walk

namespace Fix

/-- How a fix ends a walk that comes to it; none if the walk goes on. -/
def trial (verdicts : Verdicts) (t : Text) (count : Nat) (f : Fix) : Option (Walk count) :=
  match f.apply t with
  | .error _ => none
  | .ok u =>
    if u = t then none
    else
      match verdicts u with
      | .error e => some (.failed e)
      | .ok after => if fewer : after.length < count then some (.accepted f u after fewer) else none

/-- The fix has a say in a choice among candidates for a text with `count` defects. -/
def matters (verdicts : Verdicts) (t : Text) (count : Nat) (f : Fix) : Bool :=
  (f.trial verdicts t count).isSome || f.writingFault?.isSome

variable {verdicts : Verdicts} {t : Text} {count : Nat}

theorem trial_unnamed (f : Fix) :
    f.unnamed.trial verdicts t count = (f.trial verdicts t count).map Walk.unnamed := by
  have same : f.unnamed.apply t = f.apply t := rfl
  unfold trial
  rw [same]
  cases f.apply t with
  | error e => rfl
  | ok u =>
    by_cases unchanged : u = t
    · simp only [if_pos unchanged, Option.map_none]
    · simp only [if_neg unchanged]
      cases verdicts u with
      | error e => rfl
      | ok after =>
        by_cases fewer : after.length < count
        · simp only [dif_pos fewer, Option.map_some, Walk.unnamed]
        · simp only [dif_neg fewer, Option.map_none]

theorem trial_byEdits : ByEdits fun f => (f.trial verdicts t count).isSome := by
  intro f g same
  have applied : f.apply t = g.apply t := congrArg (applyEdits t) same
  simp only [trial, applied]
  cases g.apply t with
  | error e => rfl
  | ok u =>
    by_cases unchanged : u = t
    · simp only [if_pos unchanged]
    · simp only [if_neg unchanged]
      cases verdicts u with
      | error e => rfl
      | ok after =>
        by_cases fewer : after.length < count
        · simp only [dif_pos fewer, Option.isSome_some]
        · simp only [dif_neg fewer]

theorem matters_byEdits : ByEdits (matters verdicts t count) := by
  intro f g same
  have written : f.writingFault? = g.writingFault? := by rw [writingFault?, writingFault?, same]
  simp only [matters, trial_byEdits f g same, written]

/-- A fix without edits changes nothing, so that it never ends a walk. -/
theorem edits_ne_nil_of_trial {f : Fix} (ends : (f.trial verdicts t count).isSome) : f.edits ≠ [] := by
  intro none
  have same : f.apply t = .ok t := by rw [apply, none, applyEdits_nil]
  simp [trial, same] at ends

theorem eq_of_trial_accepted {f fix : Fix} {healed : Text} {after : List Defect} {fewer : after.length < count}
    (ends : f.trial verdicts t count = some (.accepted fix healed after fewer)) :
    fix = f ∧ f.apply t = .ok healed ∧ healed ≠ t ∧ verdicts healed = .ok after := by
  unfold trial at ends
  cases applied : f.apply t with
  | error e => simp [applied] at ends
  | ok u =>
    simp only [applied] at ends
    by_cases unchanged : u = t
    · simp [unchanged] at ends
    · rw [if_neg unchanged] at ends
      cases judged : verdicts u with
      | error e => simp [judged] at ends
      | ok found =>
        simp only [judged] at ends
        split at ends
        next =>
          cases ends
          exact ⟨rfl, rfl, unchanged, judged⟩
        next => cases ends

theorem trial_ne_exhausted (f : Fix) : f.trial verdicts t count ≠ some .exhausted := by
  intro ends
  unfold trial at ends
  cases applied : f.apply t with
  | error e => simp [applied] at ends
  | ok u =>
    simp only [applied] at ends
    split at ends
    next => cases ends
    next =>
      cases judged : verdicts u with
      | error e => simp [judged] at ends
      | ok found =>
        simp only [judged] at ends
        split at ends <;> cases ends

end Fix

/-- The end of a walk over fixes for a text with `count` defects: the first trial that ends it decides. -/
def walkEnd (verdicts : Verdicts) (t : Text) (count : Nat) (fixes : List Fix) : Walk count :=
  (fixes.findSome? (Fix.trial verdicts t count)).getD .exhausted

/-- The choice among candidates for a text with `count` defects: they are ranked and walked over. -/
def choose (verdicts : Verdicts) (t : Text) (count : Nat) (found : List Fix) : Except Fault (Walk count) :=
  (rankFixes? found).map (walkEnd verdicts t count)

section Choice

variable {verdicts : Verdicts} {t : Text} {count : Nat}

theorem judged_of_walkEnd {fixes : List Fix} {fix : Fix} {healed : Text} {after : List Defect}
    {fewer : after.length < count}
    (ends : walkEnd verdicts t count fixes = .accepted fix healed after fewer) :
    verdicts healed = .ok after := by
  unfold walkEnd at ends
  cases ended : fixes.findSome? (Fix.trial verdicts t count) with
  | none => simp [ended] at ends
  | some walk =>
    rw [ended, Option.getD_some] at ends
    subst ends
    obtain ⟨f, _, trial⟩ := List.exists_of_findSome?_eq_some ended
    exact (Fix.eq_of_trial_accepted trial).2.2.2

theorem findSome?_filter {α β : Type} {p : α → Option β} {q : α → Bool} (keeps : ∀ a, (p a).isSome → q a)
    (l : List α) : (l.filter q).findSome? p = l.findSome? p := by
  induction l with
  | nil => rfl
  | cons a l ih =>
    by_cases keep : q a
    · rw [List.filter_cons_of_pos keep, List.findSome?_cons, List.findSome?_cons, ih]
    · have none : p a = none := by
        cases value : p a with
        | none => rfl
        | some b => exact (keep (keeps a (by rw [value]; rfl))).elim
      rw [List.filter_cons_of_neg keep, ih, List.findSome?_cons, none]

/-- Only candidates that matter have a say. -/
theorem choose_filter_matters (found : List Fix) :
    choose verdicts t count (found.filter (Fix.matters verdicts t count)) = choose verdicts t count found := by
  have faults : ∀ f : Fix, f.writingFault?.isSome → f.matters verdicts t count :=
    fun f fault => by simp [Fix.matters, fault]
  have trials : ∀ f : Fix, (f.trial verdicts t count).isSome → f.matters verdicts t count :=
    fun f ends => by simp [Fix.matters, ends]
  unfold choose rankFixes? walkEnd
  rw [← filter_bySureness, findSome?_filter faults]
  cases (bySureness found).findSome? Fix.writingFault? with
  | some f => rfl
  | none => simp only [← filter_rankFixes Fix.matters_byEdits, Except.map, findSome?_filter trials]

/-- Names of fixes have no say, and the chosen fix keeps its own. -/
theorem choose_unnamed (found : List Fix) :
    choose verdicts t count (found.map Fix.unnamed) = (choose verdicts t count found).map Walk.unnamed := by
  have faults : ∀ fixes : List Fix, (fixes.map Fix.unnamed).findSome? Fix.writingFault? =
      fixes.findSome? Fix.writingFault? := fun fixes => List.findSome?_map
  have trials : ∀ fixes : List Fix, (fixes.map Fix.unnamed).findSome? (Fix.trial verdicts t count) =
      (fixes.findSome? (Fix.trial verdicts t count)).map Walk.unnamed := by
    intro fixes
    rw [List.findSome?_map, List.map_findSome?]
    exact congrArg (fixes.findSome? ·) (funext Fix.trial_unnamed)
  unfold choose rankFixes? walkEnd
  rw [bySureness_unnamed, faults]
  cases (bySureness found).findSome? Fix.writingFault? with
  | some f => rfl
  | none =>
    simp only [rankFixes_unnamed, Except.map, trials]
    cases (rankFixes found).findSome? (Fix.trial verdicts t count) <;> rfl

/-- Candidates that a choice for a text with `count` defects cannot tell apart: those that matter are the
same, in the same order, but for their names. -/
def Alike (verdicts : Verdicts) (t : Text) (count : Nat) (found found' : List Fix) : Prop :=
  (found.filter (Fix.matters verdicts t count)).map Fix.unnamed =
    (found'.filter (Fix.matters verdicts t count)).map Fix.unnamed

/-- Candidates that differ in their names only cannot be told apart. -/
theorem Alike.of_unnamed {found found' : List Fix} (same : found.map Fix.unnamed = found'.map Fix.unnamed) :
    Alike verdicts t count found found' := by
  have through : ∀ fixes : List Fix, (fixes.filter (Fix.matters verdicts t count)).map Fix.unnamed =
      (fixes.map Fix.unnamed).filter (Fix.matters verdicts t count) := by
    intro fixes
    rw [List.filter_map]
    exact congrArg (List.map Fix.unnamed) (List.filter_congr fun f _ => Fix.matters_byEdits f f.unnamed rfl)
  rw [Alike, through, through, same]

theorem Alike.append {found found' more more' : List Fix} (first : Alike verdicts t count found found')
    (second : Alike verdicts t count more more') :
    Alike verdicts t count (found ++ more) (found' ++ more') := by
  unfold Alike at first second ⊢
  rw [List.filter_append, List.filter_append, List.map_append, List.map_append, first, second]

theorem Alike.choose_eq {found found' : List Fix} (alike : Alike verdicts t count found found') :
    (choose verdicts t count found).map Walk.unnamed = (choose verdicts t count found').map Walk.unnamed := by
  rw [← choose_filter_matters found, ← choose_unnamed, alike, choose_unnamed, choose_filter_matters]

/-- Of the candidates that would have ended the walk, the surest is accepted, and the earliest one of those
that are as sure. -/
theorem best_of_choose {found : List Fix} {fix : Fix} {healed : Text} {after : List Defect}
    {fewer : after.length < count}
    (chosen : choose verdicts t count found = .ok (.accepted fix healed after fewer)) :
    fix.trial verdicts t count = some (.accepted fix healed after fewer) ∧
      ∃ earlier later, found = earlier ++ fix :: later ∧
        (∀ f ∈ earlier, (f.trial verdicts t count).isSome → f.confidence.atLeast fix.confidence = false) ∧
        ∀ f ∈ later, (f.trial verdicts t count).isSome → fix.confidence.atLeast f.confidence := by
  unfold choose rankFixes? walkEnd at chosen
  cases faults : (bySureness found).findSome? Fix.writingFault? with
  | some f => simp [faults, Except.map] at chosen
  | none =>
    simp only [faults, Except.map, Except.ok.injEq] at chosen
    cases ended : (rankFixes found).findSome? (Fix.trial verdicts t count) with
    | none => simp [ended] at chosen
    | some walk =>
      rw [ended, Option.getD_some] at chosen
      subst chosen
      obtain ⟨passed, f, rest, split, ends, before⟩ := List.findSome?_eq_some_iff.mp ended
      obtain ⟨rfl, _⟩ := Fix.eq_of_trial_accepted ends
      refine ⟨ends, ?_⟩
      let p : Fix → Bool := fun f => (f.trial verdicts t count).isSome
      have here : p fix = true := by simp [p, ends]
      have first : (rankFixes (found.filter p)).head? = some fix := by
        have passedOver : passed.filter p = [] := by
          rw [List.filter_eq_nil_iff]
          intro g member
          simp [p, before g member]
        rw [← filter_rankFixes Fix.trial_byEdits, split, List.filter_append, passedOver, List.nil_append,
          List.filter_cons_of_pos here, List.head?_cons]
      have edited : ∀ g ∈ found.filter p, g.edits ≠ [] :=
        fun g member => Fix.edits_ne_nil_of_trial (List.mem_filter.mp member).2
      obtain ⟨earlier, later, cut, worse, atMost⟩ := head?_rankFixes first edited
      obtain ⟨front, back, rfl, frontEq, backEq⟩ := List.filter_eq_append_iff.mp cut
      obtain ⟨skipped, later', rfl, useless, _, laterEq⟩ := List.filter_eq_cons_iff.mp backEq
      refine ⟨front ++ skipped, later', by rw [List.append_assoc], ?_, ?_⟩
      · intro g member ends'
        rcases List.mem_append.mp member with inFront | inSkipped
        · exact worse g (frontEq ▸ List.mem_filter.mpr ⟨inFront, ends'⟩)
        · exact (useless g inSkipped ends').elim
      · intro g member ends'
        exact atMost g (laterEq ▸ List.mem_filter.mpr ⟨member, ends'⟩)

/-- A walk is exhausted only if no candidate at all would have ended it. -/
theorem useless_of_choose {found : List Fix} (chosen : choose verdicts t count found = .ok .exhausted) :
    ∀ f ∈ found, f.trial verdicts t count = none := by
  unfold choose rankFixes? walkEnd at chosen
  cases faults : (bySureness found).findSome? Fix.writingFault? with
  | some f => simp [faults, Except.map] at chosen
  | none =>
    simp only [faults, Except.map, Except.ok.injEq] at chosen
    have never : (rankFixes found).findSome? (Fix.trial verdicts t count) = none := by
      cases ended : (rankFixes found).findSome? (Fix.trial verdicts t count) with
      | none => rfl
      | some walk =>
        rw [ended, Option.getD_some] at chosen
        subst chosen
        obtain ⟨f, _, ends⟩ := List.exists_of_findSome?_eq_some ended
        exact (Fix.trial_ne_exhausted f ends).elim
    let p : Fix → Bool := fun f => (f.trial verdicts t count).isSome
    have noneLeft : found.filter p = [] := by
      refine eq_nil_of_rankFixes ?_ fun g member => Fix.edits_ne_nil_of_trial (List.mem_filter.mp member).2
      rw [← filter_rankFixes Fix.trial_byEdits, List.filter_eq_nil_iff]
      intro g member
      simp [List.findSome?_eq_none_iff.mp never g member]
    intro f member
    simpa [p] using List.filter_eq_nil_iff.mp noneLeft f member

end Choice

namespace Session

open Bench

variable {ω : Type} {s : Session ω} {answers : Answers}

theorem say_yields (level : Level) (message : Text) :
    Yields s.oracle answers (s.say level message) () := .write _ _ _

/-- A walk over ranked fixes ends with the first trial that ends it. -/
theorem firstImproving_yields (follows : s.oracle.Follows answers) (t : Text) (count : Nat) (fixes : List Fix) :
    Yields s.oracle answers (s.firstImproving t count fixes)
      (walkEnd (answers.judgement s.oracleLimit) t count fixes) := by
  induction fixes with
  | nil => exact .pure _
  | cons f fixes ih =>
    unfold firstImproving walkEnd
    rw [List.findSome?_cons, Fix.trial]
    cases f.apply t with
    | error e => exact .bind (.write _ _ _) ih
    | ok u =>
      by_cases unchanged : u = t
      · simp only [if_pos unchanged]
        exact .bind (.write _ _ _) ih
      · simp only [if_neg unchanged]
        refine .bind (.revisit _) (.bind (verdict_yields follows _ u) ?_)
        cases answers.judgement s.oracleLimit u with
        | error e => exact .pure _
        | ok after =>
          by_cases fewer : after.length < count
          · simp only [dif_pos fewer]
            exact .pure _
          · simp only [dif_neg fewer]
            exact .bind (.write _ _ _) ih

theorem ranked_cases {found : List Fix} {result : Except Fault (List Fix)} {b b' : Bench ω}
    (run : s.ranked found b = (result, b')) :
    (∃ w f, (s.atRanking w).1 = some f ∧ result = .error f) ∨ result = rankFixes? found := by
  obtain ⟨fault, mid, turned, run⟩ := StateM.bind_eq_iff.mp run
  have started : (s.atRanking b.desk.world).1 = fault := congrArg Prod.fst (atDesk_eq_iff.mp turned).1
  cases fault with
  | some f =>
    cases run
    exact Or.inl ⟨_, f, started, rfl⟩
  | none =>
    cases run
    exact Or.inr rfl

/-- What comes of a search is the choice among the candidates, unless the ranking fails at its start. -/
theorem Searched.chosen {t : Text} {defects : List Defect} {b b' : Bench ω}
    {result : Except Fault (Walk defects.length)} (search : s.Searched t defects b result b')
    (follows : s.oracle.Follows answers) (repeats : b.memo.Repeats answers) :
    (∃ w f, (s.atRanking w).1 = some f ∧ result = .error f) ∨
      result = choose (answers.judgement s.oracleLimit) t defects.length (s.candidates defects t b).1 := by
  unfold choose
  cases search with
  | unranked proposed ranked =>
    rw [proposed]
    rcases ranked_cases ranked with ⟨w, f, fault, same⟩ | same
    · exact Or.inl ⟨w, f, fault, congrArg Except.error (Except.error.inj same)⟩
    · exact Or.inr (by rw [← same, Except.map])
  | @walked found b₁ fixes b₂ walk b' proposed ranked walked =>
    rw [proposed]
    rcases ranked_cases ranked with ⟨_, _, _, same⟩ | same
    · cases same
    · have memo := (ranked_memo ranked).trans (atDesk_eq_iff.mp proposed).2
      have steady : b₂.Steady answers fun _ => True := ⟨memo ▸ repeats, trivial⟩
      have ended := firstImproving_yields follows t defects.length fixes _ (fun _ _ _ => trivial) b₂ steady
      rw [walked] at ended
      exact Or.inr (by rw [← same, Except.map, ← ended.1])

end Session

end Mender
