import Mender.Proofs.Bench

namespace Mender

variable {ω : Type}

/-- What an oracle answers to each text, where the text decides about it. -/
abbrev Answers := Text → Except Trouble (List Defect)

/-- The oracle answers by the text alone. -/
def Oracle.Follows (o : Oracle ω) (answers : Answers) : Prop := ∀ t w, (o.judge t w).1 = answers t

/-- What holds of the world before a call of the oracle holds after it. -/
def Oracle.Keeps (o : Oracle ω) (holds : ω → Prop) : Prop := ∀ t w, holds w → holds (o.judge t w).2

/-- The verdict on a text under a limit. -/
def Answers.judgement (answers : Answers) (limit : Limit) (t : Text) : Except OracleError (List Defect) :=
  match limit.faultUnlessBlank? with
  | some f => .error ((Trouble.raised f).error limit)
  | none =>
    match answers t with
    | .ok found => .ok found
    | .error trouble => .error (trouble.error limit)

/-- Every verdict in the memo is the answer to its text. -/
def Memo.Repeats (m : Memo) (answers : Answers) : Prop :=
  ∀ t found, m.find? t = some found → answers t = .ok found

namespace Memo.Repeats

variable {m : Memo} {answers : Answers}

theorem empty : Memo.empty.Repeats answers := by
  intro t found known
  simp [Memo.empty, find?] at known

theorem put {t : Text} {found : List Defect} (repeats : m.Repeats answers) (answer : answers t = .ok found) :
    (m.called.put t found).Repeats answers := by
  intro u other known
  rw [find?_put] at known
  split at known
  next same =>
    cases known
    exact same ▸ answer
  next => exact repeats u other known

/-- A memo that only grows by answers of the oracle goes on repeating them. -/
theorem grows {o : Oracle ω} {later : Memo} (repeats : m.Repeats answers) (follows : o.Follows answers)
    (grows : Memo.Grows o m later) : later.Repeats answers := by
  intro t found known
  rcases grows.answered known with old | ⟨w, answer⟩
  · exact repeats t found old
  · exact (follows t w).symm.trans answer

end Memo.Repeats

theorem Answers.judgement_eq_ok_iff {answers : Answers} {limit : Limit} {t : Text} {found : List Defect} :
    answers.judgement limit t = .ok found ↔ limit.faultUnlessBlank? = none ∧ answers t = .ok found := by
  unfold judgement
  cases limit.faultUnlessBlank? with
  | some f => simp
  | none =>
    cases answers t <;> simp

namespace Bench

/-- The memo repeats the answers of the oracle, and something holds of the world. -/
structure Steady (answers : Answers) (holds : ω → Prop) (b : Bench ω) : Prop where
  repeats : b.memo.Repeats answers
  world : holds b.desk.world

/-- From every bench whose memo repeats the answers, some work ends with this result, and calls of the
oracle are all that it does to the world. -/
def Yields {α : Type} (o : Oracle ω) (answers : Answers) (work : StateM (Bench ω) α) (result : α) : Prop :=
  ∀ holds, o.Keeps holds → ∀ b, b.Steady answers holds →
    (work b).1 = result ∧ (work b).2.Steady answers holds

namespace Yields

variable {α β : Type} {o : Oracle ω} {answers : Answers} {a : α} {b : β}

theorem pure (a : α) : Yields o answers (pure a) a := fun _ _ _ steady => ⟨rfl, steady⟩

/-- The result comes from every bench whose memo repeats the answers. -/
theorem result {work : StateM (Bench ω) α} (yields : Yields o answers work a) {bench : Bench ω}
    (repeats : bench.memo.Repeats answers) : (work bench).1 = a :=
  (yields (fun _ => True) (fun _ _ _ => trivial) bench ⟨repeats, trivial⟩).1

/-- Results that are determined stay so when they follow each other. -/
theorem bind {work : StateM (Bench ω) α} {next : α → StateM (Bench ω) β} (first : Yields o answers work a)
    (rest : Yields o answers (next a) b) : Yields o answers (work >>= next) b := by
  intro holds keeps bench steady
  obtain ⟨ended, middle⟩ := first holds keeps bench steady
  obtain ⟨ended', last⟩ := rest holds keeps _ middle
  have run : (work >>= next) bench = next a (work bench).2 := by
    change next (work bench).1 (work bench).2 = _
    rw [ended]
  rw [run]
  exact ⟨ended', last⟩

theorem write (level : Level) (speaker : Speaker) (message : Text) :
    Yields o answers (Bench.write level speaker message) () :=
  fun _ _ _ steady => ⟨rfl, steady.repeats, steady.world⟩

theorem revisit (limit : Limit) : Yields o answers (Bench.revisit limit) () :=
  fun _ _ _ steady => ⟨rfl, steady.repeats, steady.world⟩

end Yields

end Bench

/-- A look-up gives the verdict on the text, whether it is remembered or not. -/
theorem Bench.verdict_yields {o : Oracle ω} {answers : Answers} (follows : o.Follows answers) (limit : Limit)
    (t : Text) : Yields o answers (Bench.verdict o limit t) (answers.judgement limit t) := by
  intro holds keeps b steady
  obtain ⟨result, b', run⟩ : ∃ result b', verdict o limit t b = (result, b') := ⟨_, _, rfl⟩
  have looked := verdict_looked run
  have called := keeps t b.desk.world steady.world
  have ended : result = answers.judgement limit t ∧ b'.memo.Repeats answers ∧ holds b'.desk.world := by
    unfold Answers.judgement
    generalize b'.memo = memo, b'.desk.world = world at looked
    cases looked with
    | refused unkept => simp only [unkept, steady.repeats, steady.world, and_self]
    | remembered keepable known =>
      simp only [keepable, steady.repeats t _ known, steady.repeats, steady.world, and_self]
    | answered keepable _ answer =>
      rw [follows] at answer
      simp only [keepable, answer, steady.repeats.put answer, called, and_self]
    | unanswered keepable _ trouble =>
      rw [follows] at trouble
      simp only [keepable, trouble, called, and_true, true_and]
      exact steady.repeats
  obtain ⟨verdict, repeats, world⟩ := ended
  rw [run]
  exact ⟨verdict, repeats, world⟩

end Mender
