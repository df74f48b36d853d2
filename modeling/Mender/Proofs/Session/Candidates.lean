import Mender.Proofs.Session.Coupled

namespace Mender

def Reply.fixes : Reply → List Fix
  | offers items => Generator.fixesOf items
  | raised _ | stalled => []

namespace Generator

variable {ω ω' : Type} {limit : Limit} {t : Text}

section Together

variable {alike : List Fix → List Fix → Prop} (nil : alike [] [])
  (append : ∀ {a b c e}, alike a b → alike c e → alike (a ++ c) (b ++ e))

include nil append

theorem fixesForDefect_couples {gs : List (Generator ω)} {states : Desk ω → Desk ω → Prop} {d : Defect}
    (each : ∀ g ∈ gs, Couples states alike (g.fixes limit d t) (g.fixes limit d t)) :
    Couples states alike (fixesForDefect gs limit d t) (fixesForDefect gs limit d t) := by
  induction gs with
  | nil => exact .pure nil
  | cons g gs ih =>
    refine (each g List.mem_cons_self).bind fun first first' here => ?_
    refine (ih fun other member => each other (List.mem_cons_of_mem g member)).bind fun more more' there => ?_
    exact .pure (append here there)

/-- One more generator goes unnoticed if its calls do. -/
theorem fixesForDefect_inserted {before after : List (Generator ω)} {states : Desk ω → Desk ω → Prop}
    {d : Defect} {g : Generator ω}
    (each : ∀ g ∈ before ++ after, Couples states alike (g.fixes limit d t) (g.fixes limit d t))
    (unnoticed : Couples states alike (pure []) (g.fixes limit d t)) :
    Couples states alike (fixesForDefect (before ++ after) limit d t)
      (fixesForDefect (before ++ g :: after) limit d t) := by
  induction before with
  | nil =>
    -- Only one side calls the generator, so that there is no step of the other to go with it.
    intro x y same
    obtain ⟨here, middle⟩ := unnoticed x y same
    obtain ⟨there, last⟩ := fixesForDefect_couples nil append each _ _ middle
    exact ⟨append here there, last⟩
  | cons first before ih =>
    refine (each first List.mem_cons_self).bind fun some some' here => ?_
    refine (ih fun other member => each other (List.mem_cons_of_mem first member)).bind ?_
    exact fun more more' there => .pure (append here there)

theorem fixesForAll_couples {gs : List (Generator ω)} {gs' : List (Generator ω')}
    {states : Desk ω → Desk ω' → Prop} {defects : List Defect}
    (each : ∀ d, Couples states alike (fixesForDefect gs limit d t) (fixesForDefect gs' limit d t)) :
    Couples states alike (fixesForAll gs limit t defects) (fixesForAll gs' limit t defects) := by
  induction defects with
  | nil => exact .pure nil
  | cons d defects ih =>
    refine (each d).bind fun first first' here => ?_
    exact ih.bind fun more more' there => .pure (append here there)

end Together

/-- What comes of a call, with the desk after it: the limit forbids it, or the generator replies. -/
inductive Called (g : Generator ω) (limit : Limit) (d : Defect) (t : Text) (x : Desk ω) :
    List Fix → Desk ω → Prop
  | refused {y} : limit.fault? ≠ none → y.world = x.world → Called g limit d t x [] y
  | replied {x₁ y} : limit.fault? = none → x₁.world = x.world →
      y.world = (g.propose d t x₁).2.world → Called g limit d t x (g.propose d t x₁).1.fixes y

theorem mem_fixesOf {items : List Offer} {f : Fix} : f ∈ fixesOf items ↔ .fix f ∈ items := by
  unfold fixesOf
  rw [List.mem_filterMap]
  constructor
  · rintro ⟨item, member, taken⟩
    cases item with
    | junk => cases taken
    | fix f => cases taken; exact member
  · exact fun member => ⟨.fix f, member, rfl⟩

theorem Called.of_world {g : Generator ω} {d : Defect} {x y z : Desk ω} {found : List Fix}
    (called : g.Called limit d t x found y) (world : z.world = y.world) : g.Called limit d t x found z := by
  cases called with
  | refused unkept same => exact .refused unkept (world.trans same)
  | replied keepable same later => exact .replied keepable same (world.trans later)

theorem call_called {g : Generator ω} {d : Defect} {x y : Desk ω} {reply : Reply}
    (run : g.call limit d t x = (reply, y)) : g.Called limit d t x reply.fixes y := by
  unfold call at run
  cases unkept : limit.fault? with
  | some f =>
    simp only [unkept] at run
    obtain ⟨_, x₁, passed, run⟩ := StateM.bind_eq_iff.mp run
    cases passed
    cases run
    exact .refused (by simp [unkept]) rfl
  | none =>
    simp only [unkept] at run
    obtain ⟨_, x₁, passed, run⟩ := StateM.bind_eq_iff.mp run
    cases passed
    obtain ⟨answer, x₂, within, run⟩ := StateM.bind_eq_iff.mp run
    obtain ⟨_, _, set, within⟩ := StateM.bind_eq_iff.mp within
    cases set
    obtain ⟨_, x₃, proposed, within⟩ := StateM.bind_eq_iff.mp within
    cases within
    obtain ⟨start, same, proposed⟩ : ∃ start : Desk ω, start.world = x.world ∧
        g.propose d t start = (answer, x₃) := ⟨_, by rfl, proposed⟩
    have replied : ∀ y : Desk ω, y.world = x₃.world → g.Called limit d t x answer.fixes y := by
      intro y world
      have called := Called.replied (y := y) unkept same (by rw [proposed]; exact world)
      rwa [proposed] at called
    cases answer with
    | raised f | stalled | offers items =>
      cases run
      exact replied _ rfl

theorem fixes_called (g : Generator ω) (limit : Limit) (d : Defect) (t : Text) (x : Desk ω) :
    g.Called limit d t x (g.fixes limit d t x).1 (g.fixes limit d t x).2 := by
  obtain ⟨found, y, run⟩ : ∃ found y, g.fixes limit d t x = (found, y) := ⟨_, _, rfl⟩
  rw [run]
  unfold fixes at run
  obtain ⟨reply, x₁, called, run⟩ := StateM.bind_eq_iff.mp run
  have called := call_called called
  -- After the call there is nothing but notes in the journal.
  have given : found = reply.fixes ∧ y.world = x₁.world := by
    cases reply with
    | raised f | stalled =>
      cases run
      exact ⟨rfl, rfl⟩
    | offers items =>
      simp only at run
      split at run <;> cases run <;> exact ⟨rfl, rfl⟩
  obtain ⟨rfl, world⟩ := given
  exact called.of_world world

/-- If the proposals are alike whatever the world, so are the fixes of two calls. -/
theorem fixes_couples {g : Generator ω} {alike : List Fix → List Fix → Prop} (nil : alike [] []) {d : Defect}
    (proposals : ∀ x y, alike (g.propose d t x).1.fixes (g.propose d t y).1.fixes) :
    Couples (fun _ _ : Desk ω => True) alike (g.fixes limit d t) (g.fixes limit d t) := by
  intro x y _
  have here := g.fixes_called limit d t x
  have there := g.fixes_called limit d t y
  refine ⟨?_, trivial⟩
  generalize (g.fixes limit d t x).1 = found, (g.fixes limit d t x).2 = last at here
  generalize (g.fixes limit d t y).1 = found', (g.fixes limit d t y).2 = last' at there
  cases here with
  | refused unkept =>
    cases there with
    | refused => exact nil
    | replied keepable => exact (unkept keepable).elim
  | replied keepable =>
    cases there with
    | refused unkept => exact (unkept keepable).elim
    | replied => exact proposals _ _

end Generator

end Mender
