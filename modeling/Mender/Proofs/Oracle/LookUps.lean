import Mathlib.Algebra.GroupWithZero.Nat
import Mathlib.Data.Finset.Card
import Mender.Proofs.Session.Watched

namespace Mender

variable {ω : Type}

/-- A look-up: its text and how it ended, how often the oracle was called for it, and the memo before and after. -/
structure LookUp where
  text : Text
  answer : Except OracleError (List Defect)
  calls : Nat
  before : Memo
  after : Memo

namespace Bench

/-- A look-up on a bench beside which the calls of the oracle are recorded. -/
def lookUp (o : Oracle ω) (limit : Limit) (t : Text) : StateM (Bench (ω × Calls)) LookUp := fun b =>
  let (answer, later) := verdict o.watched limit t b
  (⟨t, answer, later.desk.world.2.length - b.desk.world.2.length, b.memo, later.memo⟩, later)

def lookUps (o : Oracle ω) (limit : Limit) : List Text → StateM (Bench (ω × Calls)) (List LookUp)
  | [] => pure []
  | t :: texts => do
    let first ← lookUp o limit t
    let more ← lookUps o limit texts
    pure (first :: more)

/-- The same look-ups without a record, and only how they end. -/
def verdicts (o : Oracle ω) (limit : Limit) (texts : List Text) :
    StateM (Bench ω) (List (Except OracleError (List Defect))) :=
  texts.mapM (verdict o limit)

end Bench

/-- Look-ups that lead from a memo to another. Under a limit that cannot be kept, none comes as far as the memo. -/
inductive Remembering (limit : Limit) : Memo → List LookUp → Memo → Prop
  | done {m} : Remembering limit m [] m
  | refused {m t e ls m'} : limit.faultUnlessBlank? ≠ none → Remembering limit m ls m' →
      Remembering limit m (⟨t, .error e, 0, m, m⟩ :: ls) m'
  | remembered {m t found ls m'} : limit.faultUnlessBlank? = none → m.find? t = some found →
      Remembering limit m ls m' → Remembering limit m (⟨t, .ok found, 0, m, m⟩ :: ls) m'
  | answered {m t found ls m'} : limit.faultUnlessBlank? = none → m.find? t = none →
      Remembering limit (m.called.put t found) ls m' →
      Remembering limit m (⟨t, .ok found, 1, m, m.called.put t found⟩ :: ls) m'
  | unanswered {m t e ls m'} : limit.faultUnlessBlank? = none → m.find? t = none →
      Remembering limit m.called ls m' → Remembering limit m (⟨t, .error e, 1, m, m.called⟩ :: ls) m'

namespace Bench

variable {limit : Limit} {t : Text} {b : Bench ω} {calls more : Calls}

theorem lookUp_beside {o : Oracle ω} (watched : verdict o.watched limit t (b.beside calls) =
      ((verdict o limit t b).1, (verdict o limit t b).2.beside (more ++ calls))) :
    lookUp o limit t (b.beside calls) =
      (⟨t, (verdict o limit t b).1, more.length, b.memo, (verdict o limit t b).2.memo⟩,
        (verdict o limit t b).2.beside (more ++ calls)) := by
  have added : (more ++ calls).length - calls.length = more.length := by
    rw [List.length_append, Nat.add_sub_cancel]
  simp only [lookUp, watched]
  rw [← added]
  rfl

/-- How one look-up goes, with the calls that it adds to the record. -/
theorem lookUp_remembering (o : Oracle ω) (limit : Limit) (t : Text) (b : Bench ω) (calls : Calls) :
    ∃ l more, lookUp o limit t (b.beside calls) = (l, (verdict o limit t b).2.beside (more ++ calls)) ∧
      l.text = t ∧ l.answer = (verdict o limit t b).1 ∧ l.calls = more.length ∧
      ∀ {ls m'}, Remembering limit (verdict o limit t b).2.memo ls m' → Remembering limit b.memo (l :: ls) m' := by
  have looked := verdict_looked (Prod.eta (verdict o limit t b)).symm
  by_cases idle : limit.faultUnlessBlank? ≠ none ∨ b.memo.find? t ≠ none
  · have watched := (verdict_beside_idle o idle calls).1
    refine ⟨_, [], lookUp_beside watched, rfl, rfl, rfl, ?_⟩
    generalize (verdict o limit t b).1 = result, (verdict o limit t b).2.memo = after,
      (verdict o limit t b).2.desk.world = world at looked
    cases looked with
    | refused unkept => exact .refused (by simp [unkept])
    | remembered keepable known => exact .remembered keepable known
    | answered keepable unknown | unanswered keepable unknown => simp [keepable, unknown] at idle
  · obtain ⟨keepable, unknown⟩ : limit.faultUnlessBlank? = none ∧ b.memo.find? t = none := by
      simpa only [not_or, ne_eq, not_not] using idle
    have watched := (verdict_beside_asked o keepable unknown calls).1
    refine ⟨_, [_], lookUp_beside watched, rfl, rfl, rfl, ?_⟩
    generalize (verdict o limit t b).1 = result, (verdict o limit t b).2.memo = after,
      (verdict o limit t b).2.desk.world = world at looked
    cases looked with
    | refused unkept => simp [keepable] at unkept
    | remembered _ known => simp [unknown] at known
    | answered => exact .answered keepable unknown
    | unanswered => exact .unanswered keepable unknown

/-- A record changes nothing about look-ups, and has an entry for each call that is counted. -/
theorem lookUps_remembering (o : Oracle ω) (limit : Limit) (texts : List Text) (b : Bench ω) (calls : Calls) :
    ∃ ls later, lookUps o limit texts (b.beside calls) = (ls, (verdicts o limit texts b).2.beside later) ∧
      ls.map LookUp.text = texts ∧ ls.map LookUp.answer = (verdicts o limit texts b).1 ∧
      later.length = calls.length + (ls.map LookUp.calls).sum ∧
      Remembering limit b.memo ls (verdicts o limit texts b).2.memo := by
  induction texts generalizing b calls with
  | nil => exact ⟨[], calls, rfl, rfl, rfl, rfl, .done⟩
  | cons t texts ih =>
    obtain ⟨l, more, first, text, answer, counted, step⟩ := lookUp_remembering o limit t b calls
    obtain ⟨ls, later, rest, texts_eq, answers, total, run⟩ := ih (verdict o limit t b).2 (more ++ calls)
    have split : verdicts o limit (t :: texts) b =
        ((verdict o limit t b).1 :: (verdicts o limit texts (verdict o limit t b).2).1,
          (verdicts o limit texts (verdict o limit t b).2).2) := by
      rw [verdicts, List.mapM_cons]
      rfl
    refine ⟨l :: ls, later, ?_, ?_, ?_, ?_, ?_⟩
    · refine StateM.bind_eq_iff.mpr ⟨l, _, first, StateM.bind_eq_iff.mpr ⟨ls, _, rest, ?_⟩⟩
      rw [split]
      rfl
    · rw [List.map_cons, text, texts_eq]
    · rw [List.map_cons, answer, answers, split]
    · rw [total, List.length_append, List.map_cons, List.sum_cons, counted]
      omega
    · rw [split]
      exact step run

end Bench

def answeredTexts (ls : List LookUp) : Finset Text := ((ls.filter (·.answer.isOk)).map LookUp.text).toFinset

/-- The look-up failed, and it came as far as the oracle. -/
def LookUp.failedThere (l : LookUp) : Bool := !l.answer.isOk && l.calls != 0

namespace Remembering

variable {limit : Limit} {m m' : Memo} {ls : List LookUp} {t : Text} {found : List Defect}

theorem stored_of_failed (run : Remembering limit m ls m') :
    ∀ l ∈ ls, l.answer.isOk = false → l.after.verdicts = l.before.verdicts := by
  induction run with
  | done => exact nofun
  | refused _ _ ih | unanswered _ _ _ ih => exact List.forall_mem_cons.mpr ⟨fun _ => rfl, ih⟩
  | remembered _ _ _ ih | answered _ _ _ ih => exact List.forall_mem_cons.mpr ⟨nofun, ih⟩

/-- A text that has a verdict is answered by it from then on, and the oracle is not called for it. -/
theorem of_known (run : Remembering limit m ls m') (keepable : limit.faultUnlessBlank? = none)
    (known : m.find? t = some found) : ∀ l ∈ ls, l.text = t → l.answer = .ok found ∧ l.calls = 0 := by
  induction run with
  | done => exact nofun
  | refused unkept => exact (unkept keepable).elim
  | remembered _ here _ ih =>
    refine List.forall_mem_cons.mpr ⟨?_, ih known⟩
    rintro rfl
    rw [known] at here
    cases here
    exact ⟨rfl, rfl⟩
  | @answered m u other ls m' _ unknown _ ih =>
    have apart : u ≠ t := by
      rintro rfl
      rw [known] at unknown
      cases unknown
    refine List.forall_mem_cons.mpr ⟨fun same => (apart same).elim, ih ?_⟩
    rw [Memo.find?_put, if_neg apart, Memo.find?_called, known]
  | @unanswered m u e ls m' _ unknown _ ih =>
    have apart : u ≠ t := by
      rintro rfl
      rw [known] at unknown
      cases unknown
    exact List.forall_mem_cons.mpr ⟨fun same => (apart same).elim, ih known⟩

theorem pairwise_same (run : Remembering limit m ls m') :
    ls.Pairwise fun l k => ∀ found, l.answer = .ok found → k.text = l.text → k.answer = .ok found ∧ k.calls = 0 := by
  induction run with
  | done => exact .nil
  | refused _ _ ih | unanswered _ _ _ ih => exact List.pairwise_cons.mpr ⟨fun _ _ => nofun, ih⟩
  | remembered keepable known rest ih =>
    refine List.pairwise_cons.mpr ⟨fun k later found same text => ?_, ih⟩
    cases same
    exact rest.of_known keepable known k later text
  | answered keepable _ rest ih =>
    refine List.pairwise_cons.mpr ⟨fun k later found same text => ?_, ih⟩
    cases same
    exact rest.of_known keepable (by simp) k later text

/-- A text without a verdict is put to the oracle at the next look-up of it. -/
theorem asked_of_unknown {between later : List LookUp} {l : LookUp}
    (run : Remembering limit m (between ++ l :: later) m') (keepable : limit.faultUnlessBlank? = none)
    (unknown : m.find? l.text = none) (others : ∀ k ∈ between, k.text ≠ l.text) : l.calls = 1 := by
  induction between generalizing m with
  | nil =>
    cases run with
    | refused unkept => exact (unkept keepable).elim
    | remembered _ known =>
      rw [known] at unknown
      cases unknown
    | answered | unanswered => rfl
  | cons k between ih =>
    obtain ⟨other, rest_others⟩ := List.forall_mem_cons.mp others
    cases run with
    | refused unkept => exact (unkept keepable).elim
    | remembered _ _ rest | unanswered _ _ rest => exact ih rest unknown rest_others
    | answered _ _ rest =>
      exact ih rest (by rw [Memo.find?_put, if_neg other, Memo.find?_called, unknown]) rest_others

/-- Look-ups from one in the middle on. -/
theorem middle {earlier later : List LookUp} {l : LookUp} (run : Remembering limit m (earlier ++ l :: later) m') :
    Remembering limit l.before (l :: later) m' := by
  induction earlier generalizing m with
  | nil => cases run with
    | refused unkept rest => exact .refused unkept rest
    | remembered keepable known rest => exact .remembered keepable known rest
    | answered keepable unknown rest => exact .answered keepable unknown rest
    | unanswered keepable unknown rest => exact .unanswered keepable unknown rest
  | cons k earlier ih =>
    cases run with
    | refused _ rest | remembered _ _ rest | answered _ _ rest | unanswered _ _ rest => exact ih rest

/-- After a look-up that failed, the next one of its text calls the oracle again. -/
theorem asked_again {earlier between later : List LookUp} {l k : LookUp}
    (run : Remembering limit m (earlier ++ l :: (between ++ k :: later)) m')
    (keepable : limit.faultUnlessBlank? = none) (failed : l.answer.isOk = false) (same : k.text = l.text)
    (others : ∀ k ∈ between, k.text ≠ l.text) : k.calls = 1 := by
  obtain ⟨t, answer, calls, before, after⟩ := l
  have here : Remembering limit before _ m' := run.middle
  cases here with
  | refused unkept => exact (unkept keepable).elim
  | remembered | answered => cases failed
  | unanswered _ unknown rest =>
    refine rest.asked_of_unknown keepable ?_ (fun k member => same ▸ others k member)
    rw [same]
    exact unknown

section Answered

variable {c : Nat} {before after : Memo} {e : OracleError}

theorem answeredTexts_ok :
    answeredTexts (⟨t, .ok found, c, before, after⟩ :: ls) = insert t (answeredTexts ls) := by
  simp [answeredTexts, Except.isOk, Except.toBool]

theorem answeredTexts_error : answeredTexts (⟨t, .error e, c, before, after⟩ :: ls) = answeredTexts ls := rfl

end Answered

/-- The oracle is called once for each text that had no verdict and was answered, and once for each look-up that failed
there. -/
theorem sum_calls (run : Remembering limit m ls m') :
    (ls.map LookUp.calls).sum =
      {t ∈ answeredTexts ls | m.find? t = none}.card + ls.countP LookUp.failedThere := by
  induction run with
  | done => rfl
  | refused _ _ ih =>
    rw [List.map_cons, List.sum_cons, ih, answeredTexts_error, List.countP_cons_of_neg Bool.false_ne_true, Nat.zero_add]
  | remembered _ known _ ih =>
    rw [List.map_cons, List.sum_cons, ih, answeredTexts_ok, Finset.filter_insert, if_neg (by simp [known]),
      List.countP_cons_of_neg Bool.false_ne_true, Nat.zero_add]
  | @answered m t found ls m' _ unknown _ ih =>
    have texts : {u ∈ answeredTexts (⟨t, .ok found, 1, m, m.called.put t found⟩ :: ls) | m.find? u = none} =
        insert t {u ∈ answeredTexts ls | (m.called.put t found).find? u = none} := by
      ext u
      by_cases same : u = t
      · simp [answeredTexts_ok, same, unknown]
      · simp [answeredTexts_ok, same, Ne.symm same]
    rw [List.map_cons, List.sum_cons, ih, texts, Finset.card_insert_of_notMem (by simp),
      List.countP_cons_of_neg Bool.false_ne_true]
    exact (Nat.add_comm 1 _).trans (Nat.add_right_comm _ _ _)
  | @unanswered m t e ls m' _ _ _ ih =>
    have same : {u ∈ answeredTexts ls | m.called.find? u = none}.card =
        {u ∈ answeredTexts ls | m.find? u = none}.card := rfl
    rw [List.map_cons, List.sum_cons, ih, answeredTexts_error, List.countP_cons_of_pos rfl, same]
    exact (Nat.add_comm 1 _).trans (Nat.add_assoc _ _ _)

end Remembering

/-- Look-ups through one memo, whatever the oracle does. A record of the calls beside the bench changes nothing about how
they end, and all of them end with defects or an error. One that fails stores nothing, and if its limit can be kept, the
next look-up of its text calls the oracle again. The first verdict on a text is given at all later look-ups of it without
a call. In all, the oracle is called once for each text that was answered and once for each look-up that failed there. -/
theorem lookUps_remember (o : Oracle ω) (limit : Limit) (world : ω) (texts : List Text) :
    ∃ ls calls, Bench.lookUps o limit texts ((Bench.fresh world).beside []) =
        (ls, (Bench.verdicts o limit texts (.fresh world)).2.beside calls) ∧
      ls.map LookUp.text = texts ∧ ls.map LookUp.answer = (Bench.verdicts o limit texts (.fresh world)).1 ∧
      (∀ l ∈ ls, l.answer.isOk = false → l.after.verdicts = l.before.verdicts) ∧
      (limit.faultUnlessBlank? = none → ∀ earlier l between k later,
        ls = earlier ++ l :: (between ++ k :: later) → l.answer.isOk = false → k.text = l.text →
          (∀ k ∈ between, k.text ≠ l.text) → k.calls = 1) ∧
      (ls.Pairwise fun l k => ∀ found, l.answer = .ok found → k.text = l.text →
        k.answer = .ok found ∧ k.calls = 0) ∧
      calls.length = (answeredTexts ls).card + ls.countP LookUp.failedThere := by
  obtain ⟨ls, calls, watched, texts_eq, answers, total, run⟩ :=
    Bench.lookUps_remembering o limit texts (.fresh world) []
  refine ⟨ls, calls, watched, texts_eq, answers, run.stored_of_failed, ?_, run.pairwise_same, ?_⟩
  · rintro keepable earlier l between k later rfl failed same others
    exact run.asked_again keepable failed same others
  · have unknown : {t ∈ answeredTexts ls | Memo.empty.find? t = none} = answeredTexts ls :=
      Finset.filter_true_of_mem fun _ _ => rfl
    rw [total, run.sum_calls, List.length_nil, Nat.zero_add]
    exact congrArg (·.card + _) unknown

end Mender
