import Mathlib.Data.List.Forall2
import Mender.Proofs.Session.Candidates
import Mender.Proofs.Session.Parallel

namespace Mender

variable {ω ω' : Type}

/-- A relation of desks that is kept by what goes on around the calls of collaborators: notes in the
journal, turns that pass, and a limit for a call. -/
structure Desk.SideBySide (desks : Desk ω → Desk ω' → Prop) : Prop where
  write : ∀ level speaker message, Couples desks (fun _ _ => True) (Desk.write level speaker message)
    (Desk.write level speaker message)
  pass : ∀ number, Couples desks (fun _ _ => True) (Desk.pass number) (Desk.pass number)
  limited : ∀ patience, Couples desks (fun _ _ => True)
    (modify fun d => { d with patience := patience } : StateM (Desk ω) Unit)
    (modify fun d => { d with patience := patience } : StateM (Desk ω') Unit)

theorem Desk.SideBySide.holding {desks : Desk ω → Desk ω' → Prop} (side : Desk.SideBySide desks)
    (holds : ω → Prop) : Desk.SideBySide fun x y => desks x y ∧ holds x.world where
  write level speaker message x y related :=
    ⟨trivial, (side.write level speaker message x y related.1).2, related.2⟩
  pass number x y related := ⟨trivial, (side.pass number x y related.1).2, related.2⟩
  limited patience x y related := ⟨trivial, (side.limited patience x y related.1).2, related.2⟩

/-- Two generators of one name that reply the same from desks that are related. -/
structure Generator.Alongside (desks : Desk ω → Desk ω' → Prop) (g : Generator ω) (g' : Generator ω') :
    Prop where
  name : g'.name = g.name
  propose : ∀ d t, Couples desks Eq (g.propose d t) (g'.propose d t)

namespace Generator

variable {desks : Desk ω → Desk ω' → Prop} {limit : Limit} {d : Defect} {t : Text}

theorem Alongside.fixes {g : Generator ω} {g' : Generator ω'} (alongside : g.Alongside desks g')
    (side : Desk.SideBySide desks) (limit : Limit) (d : Defect) (t : Text) :
    Couples desks Eq (g.fixes limit d t) (g'.fixes limit d t) := by
  have calls : Couples desks Eq (g.call limit d t) (g'.call limit d t) := by
    unfold call
    cases limit.fault? with
    | some f => exact (side.pass _).bind fun _ _ _ => .pure rfl
    | none =>
      refine (side.pass _).bind fun _ _ _ => ?_
      have within : Couples desks Eq (Desk.within limit (g.propose d t)) (Desk.within limit (g'.propose d t)) :=
        (side.limited _).bind fun _ _ _ => (alongside.propose d t).bind fun _ _ same =>
          (side.limited _).bind fun _ _ _ => .pure same
      refine within.bind fun reply reply' same => ?_
      subst same
      cases reply <;> exact .pure rfl
  have noted : ∀ f, Couples desks (fun _ _ => True) (g.noteFault d f) (g'.noteFault d f) := by
    intro f
    unfold noteFault
    rw [alongside.name]
    exact side.write _ _ _
  unfold Generator.fixes
  refine calls.bind fun reply reply' same => ?_
  subst same
  cases reply with
  | raised f => exact (noted f).bind fun _ _ _ => .pure rfl
  | stalled => exact (noted .timeout).bind fun _ _ _ => .pure rfl
  | offers items =>
    by_cases junk : (fixesOf items).length ≠ items.length
    · simp only [if_pos junk, alongside.name]
      exact (side.write _ _ _).bind fun _ _ _ => .pure rfl
    · simp only [if_neg junk]
      exact .pure rfl

/-- What all generators propose is the same on both sides. -/
theorem fixesForAll_alongside {gs : List (Generator ω)} {gs' : List (Generator ω')}
    (alongside : List.Forall₂ (Generator.Alongside desks) gs gs') (side : Desk.SideBySide desks)
    (limit : Limit) (t : Text) (defects : List Defect) :
    Couples desks Eq (fixesForAll gs limit t defects) (fixesForAll gs' limit t defects) := by
  have append : ∀ {a b c e : List Fix}, a = b → c = e → a ++ c = b ++ e := by
    rintro _ _ _ _ rfl rfl
    rfl
  refine fixesForAll_couples rfl append fun d => ?_
  induction alongside with
  | nil => exact .pure rfl
  | cons first _ ih =>
    refine (first.fixes side limit d t).bind fun some some' here => ?_
    exact ih.bind fun more more' there => .pure (append here there)

theorem names_alongside {gs : List (Generator ω)} {gs' : List (Generator ω')}
    (alongside : List.Forall₂ (Generator.Alongside desks) gs gs') :
    gs'.map Generator.name = gs.map Generator.name := by
  induction alongside with
  | nil => rfl
  | cons first _ ih => rw [List.map_cons, List.map_cons, first.name, ih]

end Generator

section Runs

variable {before after : Desk ω → Desk ω' → Prop} {limit : Limit} {t : Text}

theorem Trouble.settle_alongside (side : Desk.SideBySide before) (limit : Limit) (trouble : Trouble) :
    Agrees before (fun _ => before) (trouble.settle (ω := ω) (α := List Defect) limit)
      (trouble.settle (ω := ω') limit) := by
  have noted : Couples before (fun _ _ => True) ((trouble.error limit).note (ω := ω))
      ((trouble.error limit).note (ω := ω')) := by
    unfold OracleError.note
    cases trouble.error limit with
    | failed f => exact side.write _ _ _
    | badList | timedOut | said => exact .pure trivial
  exact (noted.bind fun _ _ _ => .pure rfl : Couples before Eq _ _).agrees

theorem refuse_alongside (side : Desk.SideBySide before) (limit : Limit) (f : Fault) :
    Agrees before (fun _ => before) (refuse (ω := ω) (α := List Defect) limit f)
      (refuse (ω := ω') limit f) := by
  have passed : Couples before Eq (Desk.pass (ω := ω) limit.unlessBlank.turns) (Desk.pass _) :=
    (side.pass _).mono fun _ _ _ => rfl
  exact passed.agrees.bind fun _ => Trouble.settle_alongside side limit _

/-- Runs of two oracles end the same if the one call does that each of them makes. -/
theorem runOracle_alongside {o : Oracle ω} {o' : Oracle ω'} (side : Desk.SideBySide before)
    (later : Desk.SideBySide after) (keepable : limit.faultUnlessBlank? = none)
    (turned : Agrees before (fun _ => after) (Desk.turn (o.judge t)) (Desk.turn (o'.judge t))) :
    Agrees before (fun _ => after) (runOracle o limit t) (runOracle o' limit t) := by
  have passed {desks : Desk ω → Desk ω' → Prop} (side : Desk.SideBySide desks) (number : Nat) :
      Agrees desks (fun _ => desks) (Desk.pass number) (Desk.pass number) :=
    ((side.pass number).mono fun _ _ _ => rfl : Couples desks Eq _ _).agrees
  unfold runOracle
  simp only [keepable]
  refine (passed side _).bind fun _ => turned.bind fun judged => ?_
  cases judged with
  | ok found => exact (passed later _).bind fun _ => .pure fun _ _ same => same
  | error trouble =>
    have settled := Trouble.settle_alongside later limit trouble
    cases trouble with
    | stalled => exact settled
    | badList b => exact (passed later _).bind fun _ => settled
    | raised f => exact (passed later _).bind fun _ => settled

end Runs

/-- Two benches with this memo, whose desks are related. -/
structure Bench.Paired (m : Memo) (desks : Desk ω → Desk ω' → Prop) (b : Bench ω) (b' : Bench ω') : Prop where
  memo : b.memo = m
  memo' : b'.memo = m
  desk : desks b.desk b'.desk

/-- The memo after the oracle was called for a verdict. -/
def Memo.asked (m : Memo) (t : Text) : Except OracleError (List Defect) → Memo
  | .ok found => m.called.put t found
  | .error _ => m.called

namespace Memo

variable {m : Memo} {t u : Text} {found : List Defect} {result : Except OracleError (List Defect)}

theorem calls_asked : (m.asked t result).calls = m.calls + 1 := by cases result <;> rfl

theorem find?_asked (unknown : m.find? t = none) :
    (m.asked t result).find? u = some found ↔ m.find? u = some found ∨ u = t ∧ result = .ok found := by
  cases result with
  | error e => simp [asked]
  | ok other =>
    by_cases same : t = u
    · subst same
      simp [asked, unknown]
    · simp [asked, same, Ne.symm same]

end Memo

namespace Bench

variable {before after : Desk ω → Desk ω' → Prop} {m : Memo} {limit : Limit} {t : Text}

theorem Paired.atDesk {α : Type} {work : StateM (Desk ω) α} {work' : StateM (Desk ω') α}
    (agrees : Agrees before (fun _ => after) work work') :
    Agrees (Paired m before) (fun _ => Paired m after) (Bench.atDesk work) (Bench.atDesk work') := by
  rintro x y ⟨memo, memo', desk⟩
  obtain ⟨result, last⟩ := agrees x.desk y.desk desk
  exact ⟨result, memo, memo', last⟩

/-- A look-up that calls no oracle. -/
theorem verdict_kept {o : Oracle ω} {o' : Oracle ω'} (side : Desk.SideBySide before)
    (idle : limit.faultUnlessBlank? ≠ none ∨ m.find? t ≠ none) :
    Agrees (Paired m before) (fun _ => Paired m before) (verdict o limit t) (verdict o' limit t) := by
  unfold verdict
  cases keepable : limit.faultUnlessBlank? with
  | some f => exact Paired.atDesk (refuse_alongside side limit f)
  | none =>
    refine Agrees.read fun b b' paired => ?_
    rw [paired.memo, paired.memo']
    cases known : m.find? t with
    | none => simp [keepable, known] at idle
    | some found =>
      have passed : Couples before Eq (Desk.pass (ω := ω) limit.unlessBlank.turns) (Desk.pass _) :=
        (side.pass _).mono fun _ _ _ => rfl
      exact (Paired.atDesk passed.agrees).bind fun _ => .pure fun _ _ same => same

/-- A look-up that calls the oracle. -/
theorem verdict_asked {o : Oracle ω} {o' : Oracle ω'} (side : Desk.SideBySide before)
    (later : Desk.SideBySide after) (keepable : limit.faultUnlessBlank? = none) (unknown : m.find? t = none)
    (turned : Agrees before (fun _ => after) (Desk.turn (o.judge t)) (Desk.turn (o'.judge t))) :
    Agrees (Paired m before) (fun result => Paired (m.asked t result) after) (verdict o limit t)
      (verdict o' limit t) := by
  unfold verdict
  simp only [keepable]
  refine Agrees.read fun b b' paired => ?_
  rw [paired.memo, paired.memo']
  simp only [unknown]
  have counted : Agrees (Paired m before) (fun _ => Paired m.called before)
      (modify fun b => { b with memo := b.memo.called } : StateM (Bench ω) Unit)
      (modify fun b => { b with memo := b.memo.called }) := by
    rintro x y ⟨memo, memo', desk⟩
    exact ⟨rfl, congrArg Memo.called memo, congrArg Memo.called memo', desk⟩
  refine counted.bind fun _ => (Paired.atDesk (runOracle_alongside side later keepable turned)).bind fun result => ?_
  cases result with
  | error e => exact .pure fun _ _ same => same
  | ok found =>
    have put : Agrees (Paired m.called after) (fun _ => Paired (m.called.put t found) after)
        (modify fun b => { b with memo := b.memo.put t found } : StateM (Bench ω) Unit)
        (modify fun b => { b with memo := b.memo.put t found }) := by
      rintro x y ⟨memo, memo', desk⟩
      exact ⟨rfl, congrArg (Memo.put · t found) memo, congrArg (Memo.put · t found) memo', desk⟩
    exact put.bind fun _ => .pure fun _ _ same => same

end Bench

end Mender
