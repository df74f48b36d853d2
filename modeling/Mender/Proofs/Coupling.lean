import Mender.Proofs.Judgement

namespace Mender

/-- From related states two pieces of work come to related results, and the states stay related. -/
def Couples {σ τ α β : Type} (states : σ → τ → Prop) (results : α → β → Prop) (work : StateM σ α)
    (work' : StateM τ β) : Prop :=
  ∀ x y, states x y → results (work x).1 (work' y).1 ∧ states (work x).2 (work' y).2

namespace Couples

variable {σ τ α β γ δ : Type} {states : σ → τ → Prop} {results : α → β → Prop} {later : γ → δ → Prop}

theorem pure {a : α} {b : β} (related : results a b) : Couples states results (pure a) (pure b) :=
  fun _ _ same => ⟨related, same⟩

theorem bind {work : StateM σ α} {work' : StateM τ β} {next : α → StateM σ γ} {next' : β → StateM τ δ}
    (first : Couples states results work work')
    (rest : ∀ a b, results a b → Couples states later (next a) (next' b)) :
    Couples states later (work >>= next) (work' >>= next') := by
  intro x y same
  obtain ⟨related, middle⟩ := first x y same
  exact rest _ _ related _ _ middle

theorem mono {weaker : α → β → Prop} {work : StateM σ α} {work' : StateM τ β}
    (coupled : Couples states results work work') (weaken : ∀ a b, results a b → weaker a b) :
    Couples states weaker work work' := by
  intro x y same
  obtain ⟨related, last⟩ := coupled x y same
  exact ⟨weaken _ _ related, last⟩

end Couples

variable {ω ω' : Type} {answers : Answers} {worlds : ω → ω' → Prop}

/-- Two benches whose memos repeat the same answers, with related worlds. Journals, waits and turns are
left out of account. -/
structure Abreast (answers : Answers) (worlds : ω → ω' → Prop) (b : Bench ω) (b' : Bench ω') : Prop where
  left : b.memo.Repeats answers
  right : b'.memo.Repeats answers
  world : worlds b.desk.world b'.desk.world

/-- Work that does nothing to the worlds but call the oracles is coupled with any other such work. -/
theorem Bench.Yields.couples {α β : Type} {results : α → β → Prop} {o : Oracle ω} {o' : Oracle ω'}
    {work : StateM (Bench ω) α} {work' : StateM (Bench ω') β} {a : α} {b : β}
    (first : Yields o answers work a) (second : Yields o' answers work' b)
    (keeps : ∀ w', o.Keeps fun w => worlds w w') (keeps' : ∀ w, o'.Keeps fun w' => worlds w w')
    (related : results a b) : Couples (Abreast answers worlds) results work work' := by
  intro x y abreast
  obtain ⟨ended, left⟩ := first _ (keeps y.desk.world) x ⟨abreast.left, abreast.world⟩
  obtain ⟨ended', right⟩ := second _ (keeps' (work x).2.desk.world) y ⟨abreast.right, left.world⟩
  rw [ended, ended']
  exact ⟨related, left.repeats, right.repeats, right.world⟩

/-- Work at two desks that is coupled is coupled on the benches around them. -/
theorem Couples.atDesk {α β : Type} {results : α → β → Prop} {work : StateM (Desk ω) α}
    {work' : StateM (Desk ω') β}
    (coupled : Couples (fun d d' => worlds d.world d'.world) results work work') :
    Couples (Abreast answers worlds) results (Bench.atDesk work) (Bench.atDesk work') := by
  intro x y abreast
  obtain ⟨related, world⟩ := coupled x.desk y.desk abreast.world
  exact ⟨related, abreast.left, abreast.right, world⟩

end Mender
