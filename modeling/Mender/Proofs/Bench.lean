import Mender.Oracle.Memo

namespace Mender

theorem StateM.bind_eq_iff {σ α β : Type} {act : StateM σ α} {next : α → StateM σ β} {b : σ}
    {result : β × σ} :
    (act >>= next) b = result ↔ ∃ a mid, act b = (a, mid) ∧ next a mid = result := by
  constructor
  · intro run
    exact ⟨(act b).1, (act b).2, rfl, run⟩
  · rintro ⟨a, mid, first, rest⟩
    change next (act b).1 (act b).2 = result
    rw [first, rest]

namespace Memo

@[simp] theorem find?_put (m : Memo) (t u : Text) (found : List Defect) :
    (m.put t found).find? u = if t = u then some found else m.find? u := by
  by_cases same : t = u <;> simp [find?, put, same]

@[simp] theorem find?_called (m : Memo) (t : Text) : m.called.find? t = m.find? t := rfl

/-- What became of a memo while an oracle was at work. -/
structure Grows {ω : Type} (o : Oracle ω) (before after : Memo) : Prop where
  kept : ∀ {t found}, before.find? t = some found → after.find? t = some found
  answered : ∀ {t found}, after.find? t = some found →
    before.find? t = some found ∨ ∃ w, (o.judge t w).1 = .ok found

namespace Grows

variable {ω : Type} {o : Oracle ω} {m before middle after : Memo}

theorem refl : Grows o m m := ⟨id, Or.inl⟩

theorem of_eq (same : after = before) : Grows o before after := same ▸ refl

theorem trans (first : Grows o before middle) (second : Grows o middle after) :
    Grows o before after := by
  refine ⟨fun known => second.kept (first.kept known), fun known => ?_⟩
  rcases second.answered known with earlier | answer
  · exact first.answered earlier
  · exact Or.inr answer

theorem put {t : Text} {found : List Defect} (new : m.find? t = none) {w : ω}
    (answer : (o.judge t w).1 = .ok found) : Grows o m (m.called.put t found) := by
  constructor
  · intro u known atU
    have other : t ≠ u := by
      rintro rfl
      rw [new] at atU
      cases atU
    rw [find?_put, if_neg other, find?_called, atU]
  · intro u known atU
    rw [find?_put] at atU
    split at atU
    next same =>
      subst same
      cases atU
      exact Or.inr ⟨w, answer⟩
    next => exact Or.inl atU

end Grows

end Memo

variable {ω : Type}

/-- Noting the trouble leaves the world as it was; what is passed on depends on the trouble and the
limit alone. -/
theorem settle_eq {α : Type} (limit : Limit) (trouble : Trouble) (d : Desk ω) :
    ((trouble.settle limit : StateM (Desk ω) (Except OracleError α)) d).1 = .error (trouble.error limit) ∧
      ((trouble.settle limit : StateM (Desk ω) (Except OracleError α)) d).2.world = d.world := by
  unfold Trouble.settle OracleError.note
  cases trouble.error limit <;> exact ⟨rfl, rfl⟩

/-- A run ends as the one call of the oracle does that it makes. -/
theorem runOracle_eq {o : Oracle ω} {limit : Limit} (keepable : limit.faultUnlessBlank? = none) (t : Text)
    (d : Desk ω) : (runOracle o limit t d).1 = (o.judge t d.world).1.mapError (Trouble.error limit) ∧
      (runOracle o limit t d).2.world = (o.judge t d.world).2 := by
  obtain ⟨result, d', run⟩ : ∃ result d', runOracle o limit t d = (result, d') := ⟨_, _, rfl⟩
  rw [run]
  unfold runOracle at run
  simp only [keepable] at run
  obtain ⟨_, d₁, passed, run⟩ := StateM.bind_eq_iff.mp run
  obtain ⟨judged, d₂, turned, run⟩ := StateM.bind_eq_iff.mp run
  cases passed
  have answer : (o.judge t d.world).1 = judged := congrArg Prod.fst turned
  have world : d₂.world = (o.judge t d.world).2 := (congrArg (fun p => p.2.world) turned).symm
  rw [answer]
  cases judged with
  | ok found =>
    cases run
    exact ⟨rfl, world⟩
  | error trouble =>
    have settled : ∀ d₃ : Desk ω, d₃.world = d₂.world → trouble.settle limit d₃ = (result, d') →
        result = .error (trouble.error limit) ∧ d'.world = (o.judge t d.world).2 := by
      intro d₃ same run
      obtain ⟨error, kept⟩ := settle_eq (α := List Defect) limit trouble d₃
      rw [run] at error kept
      exact ⟨error, kept.trans (same.trans world)⟩
    cases trouble with
    | stalled => exact settled d₂ rfl run
    | badList b =>
      obtain ⟨_, d₃, passed, run⟩ := StateM.bind_eq_iff.mp run
      exact settled d₃ (by cases passed; rfl) run
    | raised f =>
      obtain ⟨_, d₃, passed, run⟩ := StateM.bind_eq_iff.mp run
      exact settled d₃ (by cases passed; rfl) run

namespace Bench

/-- Work at the desk does not touch the memo. -/
theorem atDesk_eq_iff {α : Type} {act : StateM (Desk ω) α} {a : α} {b b' : Bench ω} :
    atDesk act b = (a, b') ↔ act b.desk = (a, b'.desk) ∧ b'.memo = b.memo := by
  constructor
  · intro run
    cases run
    exact ⟨rfl, rfl⟩
  · rintro ⟨run, same⟩
    change ((act b.desk).1, { b with desk := (act b.desk).2 }) = (a, b')
    rw [run, ← same]

/-- How a look-up ends, with the memo and the world that it leaves behind. -/
inductive Looked (o : Oracle ω) (limit : Limit) (t : Text) (b : Bench ω) :
    Except OracleError (List Defect) → Memo → ω → Prop
  | refused {f} : limit.faultUnlessBlank? = some f →
      Looked o limit t b (.error ((Trouble.raised f).error limit)) b.memo b.desk.world
  | remembered {found} : limit.faultUnlessBlank? = none → b.memo.find? t = some found →
      Looked o limit t b (.ok found) b.memo b.desk.world
  | answered {found} : limit.faultUnlessBlank? = none → b.memo.find? t = none →
      (o.judge t b.desk.world).1 = .ok found →
      Looked o limit t b (.ok found) (b.memo.called.put t found) (o.judge t b.desk.world).2
  | unanswered {trouble} : limit.faultUnlessBlank? = none → b.memo.find? t = none →
      (o.judge t b.desk.world).1 = .error trouble →
      Looked o limit t b (.error (trouble.error limit)) b.memo.called (o.judge t b.desk.world).2

/-- A text is looked up first, and only a text not yet known is put before the oracle. -/
theorem verdict_looked {o : Oracle ω} {limit : Limit} {t : Text} {b b' : Bench ω}
    {result : Except OracleError (List Defect)} (run : verdict o limit t b = (result, b')) :
    Looked o limit t b result b'.memo b'.desk.world := by
  unfold verdict at run
  cases keepable : limit.faultUnlessBlank? with
  | some f =>
    simp only [keepable] at run
    obtain ⟨refused, same⟩ := atDesk_eq_iff.mp run
    obtain ⟨_, d, passed, settled⟩ := StateM.bind_eq_iff.mp refused
    obtain ⟨error, kept⟩ := settle_eq (α := List Defect) limit (.raised f) d
    rw [settled] at error kept
    have world : b'.desk.world = b.desk.world := kept.trans (by cases passed; rfl)
    change result = _ at error
    rw [same, world, error]
    exact .refused keepable
  | none =>
    simp only [keepable] at run
    obtain ⟨_, _, got, run⟩ := StateM.bind_eq_iff.mp run
    cases got
    cases known : b.memo.find? t with
    | some found =>
      simp only [known] at run
      obtain ⟨_, _, revisited, run⟩ := StateM.bind_eq_iff.mp run
      cases revisited
      cases run
      exact .remembered keepable known
    | none =>
      simp only [known] at run
      obtain ⟨_, _, counted, run⟩ := StateM.bind_eq_iff.mp run
      cases counted
      obtain ⟨answer, asked, asking, run⟩ := StateM.bind_eq_iff.mp run
      obtain ⟨ran, same⟩ := atDesk_eq_iff.mp asking
      obtain ⟨ended, world⟩ := runOracle_eq (o := o) keepable t b.desk
      rw [ran] at ended world
      cases judged : (o.judge t b.desk.world).1 with
      | error trouble =>
        rw [judged] at ended
        cases ended
        cases run
        rw [same, world]
        exact .unanswered keepable known judged
      | ok found =>
        rw [judged] at ended
        cases ended
        obtain ⟨_, _, put, run⟩ := StateM.bind_eq_iff.mp run
        cases put
        cases run
        change Looked o limit t b (.ok found) (asked.memo.put t found) asked.desk.world
        rw [same, world]
        exact .answered keepable known judged

namespace Looked

variable {o : Oracle ω} {limit : Limit} {t : Text} {b : Bench ω} {after : Memo} {world : ω}
  {result : Except OracleError (List Defect)} {found : List Defect}

theorem grows (looked : Looked o limit t b result after world) : Memo.Grows o b.memo after := by
  cases looked with
  | refused | remembered => exact .refl
  | answered _ new answer => exact .put new answer
  | unanswered => exact ⟨id, Or.inl⟩

/-- A verdict that was given is remembered, and under its limit it will be given again. -/
theorem known (looked : Looked o limit t b (.ok found) after world) :
    limit.faultUnlessBlank? = none ∧ after.find? t = some found := by
  cases looked with
  | remembered keepable known => exact ⟨keepable, known⟩
  | answered keepable => exact ⟨keepable, by simp⟩

/-- Under a limit that can be kept, no verdict means that the oracle had trouble with the text. -/
theorem trouble {e : OracleError} (looked : Looked o limit t b (.error e) after world)
    (keepable : limit.faultUnlessBlank? = none) : ∃ w trouble, (o.judge t w).1 = .error trouble := by
  cases looked with
  | refused unkept => simp [keepable] at unkept
  | unanswered _ _ trouble => exact ⟨_, _, trouble⟩

/-- A text with a verdict is judged as before, and the memo stays as it is. -/
theorem of_known (looked : Looked o limit t b result after world)
    (keepable : limit.faultUnlessBlank? = none) (known : b.memo.find? t = some found) :
    result = .ok found ∧ after = b.memo := by
  cases looked with
  | refused unkept => simp [keepable] at unkept
  | remembered _ same =>
    rw [known] at same
    cases same
    exact ⟨rfl, rfl⟩
  | answered _ new | unanswered _ new => simp [known] at new

/-- A text without a verdict is judged as the oracle answers. -/
theorem ok_iff (looked : Looked o limit t b result after world) (keepable : limit.faultUnlessBlank? = none)
    (unknown : b.memo.find? t = none) (found : List Defect) :
    result = .ok found ↔ (o.judge t b.desk.world).1 = .ok found := by
  cases looked with
  | refused unkept => simp [keepable] at unkept
  | remembered _ known => simp [unknown] at known
  | answered _ _ answer => simp [answer]
  | unanswered _ _ trouble => simp [trouble]

end Looked

end Bench

end Mender
