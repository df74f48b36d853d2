import Mender.Proofs.Ranking.Writable
import Mender.Proofs.Session.Determined

namespace Mender

variable {ω σ : Type} {answers : Answers} {view : ω → σ}

/-- By the answers of an oracle the fix is no use on a text: it has no edits, it does not apply, it changes
nothing, or the text that comes of it has no fewer defects. -/
def Fix.Inert (answers : Answers) (t : Text) (f : Fix) : Prop :=
  f.edits = [] ∨ (∃ e, f.apply t = .error e) ∨ f.apply t = .ok t ∨
    ∃ u after, f.apply t = .ok u ∧ answers u = .ok after ∧
      ∀ found, answers t = .ok found → found.length ≤ after.length

/-- The reply to a call about a text holds nothing but junk and inert fixes, if it holds anything. -/
def Reply.Inert (answers : Answers) (t : Text) : Reply → Prop
  | raised _ | stalled => True
  | offers items => ∀ f, Offer.fix f ∈ items → f.Inert answers t ∧ f.Writable

/-- No call of the generator helps, and none changes what is seen of the world. -/
structure Generator.Inert (answers : Answers) (view : ω → σ) (g : Generator ω) : Prop where
  reply : ∀ d t (x : Desk ω), (g.propose d t x).1.Inert answers t
  unseen : ∀ d t (x : Desk ω), view (g.propose d t x).2.world = view x.world

/-- Of all the world the session goes by what is seen of it: calls of the oracle do not change that, and
where the same is seen, the same is done. -/
structure Session.GoesBy (view : ω → σ) (s : Session ω) : Prop where
  oracle : ∀ t w, view (s.oracle.judge t w).2 = view w
  cancelled : ∀ w w', view w = view w' → s.cancelled w = s.cancelled w'
  ranking : ∀ w w', view w = view w' →
    (s.atRanking w).1 = (s.atRanking w').1 ∧ view (s.atRanking w).2 = view (s.atRanking w').2
  generators : ∀ g ∈ s.generators, ∀ d t, Couples (fun x y => view x.world = view y.world)
    (fun found found' => found.map Fix.unnamed = found'.map Fix.unnamed)
    (g.fixes s.generatorLimit d t) (g.fixes s.generatorLimit d t)

/-- An inert fix has no say in a choice. -/
theorem Fix.Inert.not_matters {limit : Limit} {t : Text} {found : List Defect} {f : Fix}
    (inert : f.Inert answers t) (writable : f.Writable) (judged : answers.judgement limit t = .ok found) :
    f.matters (answers.judgement limit) t found.length = false := by
  obtain ⟨keepable, answered⟩ := Answers.judgement_eq_ok_iff.mp judged
  have useless : f.trial (answers.judgement limit) t found.length = none := by
    rcases inert with none | ⟨e, applied⟩ | applied | ⟨u, after, applied, answer, atLeast⟩
    · cases ends : f.trial (answers.judgement limit) t found.length with
      | none => rfl
      | some walk => exact (edits_ne_nil_of_trial (by rw [ends]; rfl) none).elim
    · rw [trial, applied]
    · simp only [trial, applied, if_true]
    · have verdict := Answers.judgement_eq_ok_iff.mpr ⟨keepable, answer⟩
      have no : ¬after.length < found.length := Nat.not_lt.mpr (atLeast found answered)
      simp only [trial, applied, verdict, dif_neg no, ite_self]
  simp [matters, useless, writingFault?_eq_none_iff.mpr writable]

theorem Reply.Inert.alike_nil {limit : Limit} {t : Text} {found : List Defect} {reply : Reply}
    (inert : reply.Inert answers t) (judged : answers.judgement limit t = .ok found) :
    Alike (answers.judgement limit) t found.length [] reply.fixes := by
  have none : reply.fixes.filter (Fix.matters (answers.judgement limit) t found.length) = [] := by
    rw [List.filter_eq_nil_iff]
    intro f member
    cases reply with
    | raised | stalled => cases member
    | offers items =>
      obtain ⟨useless, writable⟩ := inert f (Generator.mem_fixesOf.mp member)
      simp [useless.not_matters writable judged]
  rw [Alike, none, List.filter_nil]

/-- A call of an inert generator is as good as none. -/
theorem Generator.Inert.fixes_couples {limit within : Limit} {t : Text} {found : List Defect}
    {g : Generator ω} (inert : g.Inert answers view) (judged : answers.judgement limit t = .ok found)
    (d : Defect) : Couples (fun x y : Desk ω => view x.world = view y.world)
      (Alike (answers.judgement limit) t found.length) (pure []) (g.fixes within d t) := by
  intro x y same
  have called := g.fixes_called within d t y
  generalize (g.fixes within d t y).1 = fixes, (g.fixes within d t y).2 = last at called
  cases called with
  | refused _ world => exact ⟨rfl, same.trans (congrArg view world).symm⟩
  | @replied start _ _ started world =>
    have unseen := inert.unseen d t start
    rw [← world, started, ← same] at unseen
    exact ⟨(inert.reply d t start).alike_nil judged, unseen.symm⟩

/-- A session with one more generator at some place of its list, under a name of its own. -/
def Session.inserting (s : Session ω) (name : Text) (before : List (Generator ω)) (g : Generator ω)
    (after : List (Generator ω)) : Session ω :=
  { s with id := name, generators := before ++ g :: after }

theorem Session.GoesBy.coupled_inserting {s : Session ω} {before after : List (Generator ω)}
    {g : Generator ω} (goesBy : s.GoesBy view) (follows : s.oracle.Follows answers)
    (listed : s.generators = before ++ after) (inert : g.Inert answers view) (name : Text) :
    Session.Coupled answers (fun w w' => view w = view w') s (s.inserting name before g after) where
  follows := follows
  follows' := follows
  limit := rfl
  keeps w' t w same := (goesBy.oracle t w).trans same
  keeps' w t w' same := same.trans (goesBy.oracle t w').symm
  cancelled := goesBy.cancelled
  ranking := goesBy.ranking
  candidates t found judged := by
    refine Generator.fixesForAll_couples (by rfl) Alike.append fun d => ?_
    rw [listed]
    refine Generator.fixesForDefect_inserted (by rfl) Alike.append (fun g member => ?_)
      (inert.fixes_couples judged d)
    exact (goesBy.generators g (listed ▸ member) d t).mono fun _ _ => .of_unnamed

/-- Inert generators are invisible: wherever one is put into the list of a session, and under whatever name
the session runs, the outcome is the same but for the names, whatever the two sessions have judged before. -/
theorem Session.run_inserting {s : Session ω} {before after : List (Generator ω)} {g : Generator ω}
    (follows : s.oracle.Follows answers) (goesBy : s.GoesBy view) (listed : s.generators = before ++ after)
    (inert : g.Inert answers view) (name : Text) {b b' : Bench ω} (left : b.memo.Repeats answers)
    (right : b'.memo.Repeats answers) (same : view b.desk.world = view b'.desk.world) :
    ((s.inserting name before g after).run b').1.anonymous = (s.run b).1.anonymous := by
  have coupled := goesBy.coupled_inserting follows listed inert name
  exact ((coupled.run rfl rfl rfl) b b' ⟨left, right, same⟩).1.symm

/-- A generator that breaks down on "x" and has nothing to offer elsewhere. It counts its calls. -/
def idler : Generator Nat where
  name := "idler"
  propose _ t := Desk.turn fun calls =>
    (if t = "x" then .raised ⟨"RuntimeError", "lost"⟩
      else .offers [.junk, .fix ⟨some "idle", "do nothing", "", [], Confidence.zero, .rule⟩], calls + 1)

theorem staircase_goesBy (start : Text) : (staircase start).GoesBy fun _ => () where
  oracle _ _ := rfl
  cancelled _ _ _ := rfl
  ranking _ _ _ := ⟨rfl, rfl⟩
  generators g member d t x y _ :=
    ⟨(((staircase_determined start).proposes g member).fixes_couples .none d t x y trivial).1, rfl⟩

theorem idler_inert (answers : Answers) : idler.Inert answers fun _ => () where
  reply d t x := by
    change (if t = "x" then Reply.raised _ else .offers _).Inert answers t
    split
    next => trivial
    next =>
      intro f member
      have idle : f.edits = [] := by
        rcases List.mem_cons.mp member with same | member
        · cases same
        · cases List.mem_singleton.mp member
          rfl
      exact ⟨Or.inl idle, fun e inEdits => by simp [idle] at inEdits⟩
  unseen _ _ _ := rfl

/-- The session takes the last step with the idler in front of the editor as it does without. -/
theorem staircase_with_idler :
    (((staircase "y").inserting "t" [] idler (staircase "y").generators).run (Bench.fresh 7)).1.anonymous =
        ((staircase "y").run (Bench.fresh 0)).1.anonymous ∧
      ((staircase "y").run (Bench.fresh 0)).1.healed = "z" := by
  refine ⟨?_, by decide +kernel⟩
  exact Session.run_inserting (staircase_determined "y").follows (staircase_goesBy "y") rfl (idler_inert _) "t"
    .empty .empty rfl

end Mender
