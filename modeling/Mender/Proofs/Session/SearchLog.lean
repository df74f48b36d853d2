import Mathlib.Data.List.Forall2
import Mender.Proofs.Session.Choice
import Mender.Proofs.Session.Round

namespace Mender

/-- One search for a fix: the text with its defects, what each generator proposed for each defect, and the
fix that was accepted, if one was. -/
structure Search where
  text : Text
  defects : List Defect
  proposals : List (List (List Fix))
  accepted : Option Fix

namespace Search

/-- All proposals in the order in which they were made: by defect, then by generator, then as the generator
lists them. -/
def emitted (x : Search) : List Fix := x.proposals.flatten.flatten

/-- What was accepted, with the text for which it was. -/
def choice? (x : Search) : Option (Text × Fix) := x.accepted.map fun f => (x.text, f)

end Search

/-- What comes of running through a list is, for each item, what comes of the work on it. -/
theorem StateM.mapM_forall₂ {σ α β : Type} (work : α → StateM σ β) (l : List α) (x : σ) :
    List.Forall₂ (fun a r => ∃ y, r = (work a y).1) l (l.mapM work x).1 := by
  induction l generalizing x with
  | nil => exact .nil
  | cons a l ih =>
    rw [List.mapM_cons]
    exact .cons ⟨x, rfl⟩ (ih _)

namespace Generator

variable {ω : Type}

/-- What each generator proposes for each defect of a text. -/
def proposals (gs : List (Generator ω)) (limit : Limit) (t : Text) (defects : List Defect) :
    StateM (Desk ω) (List (List (List Fix))) :=
  defects.mapM fun d => gs.mapM fun g => g.fixes limit d t

theorem fixesForDefect_eq (gs : List (Generator ω)) (limit : Limit) (d : Defect) (t : Text) (x : Desk ω) :
    fixesForDefect gs limit d t x =
      ((gs.mapM (fun g => g.fixes limit d t) x).1.flatten, (gs.mapM (fun g => g.fixes limit d t) x).2) := by
  induction gs generalizing x with
  | nil => rfl
  | cons g gs ih =>
    rw [List.mapM_cons]
    refine StateM.bind_eq_iff.mpr ⟨_, _, rfl, ?_⟩
    refine StateM.bind_eq_iff.mpr ⟨_, _, ih _, ?_⟩
    rfl

theorem fixesForAll_eq (gs : List (Generator ω)) (limit : Limit) (t : Text) (defects : List Defect)
    (x : Desk ω) : fixesForAll gs limit t defects x =
      ((proposals gs limit t defects x).1.flatten.flatten, (proposals gs limit t defects x).2) := by
  unfold proposals
  induction defects generalizing x with
  | nil => rfl
  | cons d defects ih =>
    rw [List.mapM_cons]
    refine StateM.bind_eq_iff.mpr ⟨_, _, fixesForDefect_eq gs limit d t x, ?_⟩
    refine StateM.bind_eq_iff.mpr ⟨_, _, ih _, ?_⟩
    exact congrArg (·, _) List.flatten_append.symm

/-- Every proposal comes from its generator, called for its defect on the text. -/
theorem proposals_forall₂ (gs : List (Generator ω)) (limit : Limit) (t : Text) (defects : List Defect)
    (x : Desk ω) :
    List.Forall₂ (fun d row => List.Forall₂ (fun g fixes => ∃ y, fixes = (g.fixes limit d t y).1) gs row)
      defects (proposals gs limit t defects x).1 := by
  refine (StateM.mapM_forall₂ _ defects x).imp ?_
  rintro d row ⟨y, rfl⟩
  exact StateM.mapM_forall₂ _ gs y

end Generator

namespace Session

variable {ω : Type}

/-- What the generators of the session propose for the defects of a text. -/
def proposals (s : Session ω) (defects : List Defect) (t : Text) :
    StateM (Bench ω) (List (List (List Fix))) :=
  Bench.atDesk (Generator.proposals s.generators s.generatorLimit t defects)

theorem candidates_eq (s : Session ω) (defects : List Defect) (t : Text) (b : Bench ω) :
    s.candidates defects t b =
      ((s.proposals defects t b).1.flatten.flatten, (s.proposals defects t b).2) := by
  unfold candidates proposals
  refine Bench.atDesk_eq_iff.mpr ⟨?_, rfl⟩
  exact Generator.fixesForAll_eq ..

/-- The accepting of fixes with a log of its searches. -/
def loggedFixes (s : Session ω) (iteration : Nat) (reported : List Defect) (current : Text)
    (defects : List Defect) (applied : List Fix) : StateM (Bench ω) (Pass × List Search) := do
  if defects.isEmpty then pure (⟨current, defects, applied, .finished⟩, [])
  else
    let proposals ← s.proposals defects current
    match ← s.ranked proposals.flatten.flatten with
    | .error f =>
      pure (⟨current, defects, applied, .failed (.unexpected f)⟩, [⟨current, defects, proposals, none⟩])
    | .ok fixes =>
      match ← s.firstImproving current defects.length fixes with
      | .failed e =>
        pure (⟨current, defects, applied, .failed (.oracle e)⟩, [⟨current, defects, proposals, none⟩])
      | .exhausted => pure (⟨current, defects, applied, .finished⟩, [⟨current, defects, proposals, none⟩])
      | .accepted fix healed after _ =>
        let remaining := Defect.prioritize after
        s.say .info
          ("accepted '" ++ fix.title ++ "' (" ++ fix.strategy.word ++ ") — "
            ++ countChange defects.length after.length)
        if hasFresh remaining reported then
          s.say .info ("new defects surfaced, ending iteration " ++ Text.ofNat iteration)
          pure (⟨healed, remaining, applied ++ [fix], .finished⟩, [⟨current, defects, proposals, some fix⟩])
        else
          let (pass, searches) ← loggedFixes s iteration reported healed remaining (applied ++ [fix])
          pure (pass, ⟨current, defects, proposals, some fix⟩ :: searches)
termination_by defects.length
decreasing_by
  simp only [Defect.length_prioritize]
  assumption

/-- The searches of an iteration on a text. -/
def roundSearches (s : Session ω) (iteration : Nat) (current : Text) : StateM (Bench ω) (List Search) := do
  if s.cancelled (← get).desk.world then pure []
  else
    match ← s.verdict current with
    | .error _ | .ok [] => pure []
    | .ok (d :: more) =>
      let reported := Defect.prioritize (d :: more)
      s.say .info
        ("iteration " ++ Text.ofNat iteration ++ "/" ++ s.budgetText ++ " — "
          ++ Text.ofNat reported.length ++ " defects")
      let (_, searches) ← s.loggedFixes iteration reported current reported []
      pure searches

/-- The searches of the iterations after a course, `left` of them at most. -/
def searchesFrom (s : Session ω) : (left : Nat) → Course → StateM (Bench ω) (List Search)
  | 0, _ => pure []
  | left + 1, course => do
    let before ← get
    let round ← s.round (course.iterations + 1) course.current
    let here := (s.roundSearches (course.iterations + 1) course.current before).1
    match round.ending? s.maxIterations (course.after round).steps with
    | some ending =>
      s.noteStop round ending
      pure here
    | none =>
      let later ← searchesFrom s left (course.after round)
      pure (here ++ later)

def searches (s : Session ω) : StateM (Bench ω) (List Search) := do
  s.announce
  s.searchesFrom s.maxIterations.toNat ⟨s.text, 0, []⟩

variable {s : Session ω} {b b' : Bench ω}

/-- The log changes nothing about a pass. -/
theorem acceptFixes_eq_loggedFixes (iteration : Nat) (reported : List Defect) (t : Text)
    (defects : List Defect) (applied : List Fix) (b : Bench ω) :
    s.acceptFixes iteration reported t defects applied b =
      ((s.loggedFixes iteration reported t defects applied b).1.1,
        (s.loggedFixes iteration reported t defects applied b).2) := by
  induction size : defects.length using Nat.strongRecOn generalizing t defects applied b with
  | _ n ih =>
    obtain ⟨⟨pass, xs⟩, b', run⟩ : ∃ p b', s.loggedFixes iteration reported t defects applied b = (p, b') :=
      ⟨_, _, rfl⟩
    rw [run]
    unfold loggedFixes at run
    unfold acceptFixes
    by_cases none : defects.isEmpty
    · rw [if_pos none] at run ⊢
      cases run
      rfl
    rw [if_neg none] at run ⊢
    obtain ⟨found, b₁, proposed, run⟩ := StateM.bind_eq_iff.mp run
    have candidates := s.candidates_eq defects t b
    rw [proposed] at candidates
    refine StateM.bind_eq_iff.mpr ⟨_, _, candidates, ?_⟩
    obtain ⟨fixes?, b₂, ranked, run⟩ := StateM.bind_eq_iff.mp run
    refine StateM.bind_eq_iff.mpr ⟨_, _, ranked, ?_⟩
    cases fixes? with
    | error f =>
      cases run
      rfl
    | ok fixes =>
      obtain ⟨walk, b₃, walked, run⟩ := StateM.bind_eq_iff.mp run
      refine StateM.bind_eq_iff.mpr ⟨_, _, walked, ?_⟩
      cases walk with
      | failed | exhausted =>
        cases run
        rfl
      | accepted fix healed after fewer =>
        obtain ⟨_, b₄, noted, run⟩ := StateM.bind_eq_iff.mp run
        refine StateM.bind_eq_iff.mpr ⟨_, _, noted, ?_⟩
        by_cases unseen : hasFresh (Defect.prioritize after) reported
        · rw [if_pos unseen] at run ⊢
          cases run
          rfl
        · rw [if_neg unseen] at run ⊢
          obtain ⟨⟨pass', more⟩, b₅, rest, run⟩ := StateM.bind_eq_iff.mp run
          cases run
          have smaller : (Defect.prioritize after).length < n := by
            rw [← size, Defect.length_prioritize]
            exact fewer
          rw [ih _ smaller healed _ _ b₄ rfl, rest]

end Session

end Mender
