import Mender.Proofs.Proposals
import Mender.Proofs.Session.Budget
import Mender.Proofs.Session.Trail

namespace Mender

variable {ω : Type}

/-- Some proposal in the search cannot be written out. -/
def Search.Unwritable (x : Search) : Prop := ∃ f ∈ x.emitted, ¬f.Writable

/-- The accepting of fixes failed, and the oracle is not to blame. -/
def Pass.Unexpected (p : Pass) : Prop := ∃ f, p.ending = .failed (.unexpected f)

namespace Session

variable {s : Session ω} {t : Text} {defects : List Defect} {b b' : Bench ω} {xs : List Search}

/-- The ranking fails exactly when one of the proposals cannot be written out. -/
theorem Tried.error_iff {proposals : List (List (List Fix))} {result : Except Fault (Walk defects.length)}
    (tried : s.Tried t defects b proposals result b') (quiet : ∀ w, (s.atRanking w).1 = none)
    (accepted : Option Fix) :
    (∃ fault, result = .error fault) ↔ Search.Unwritable ⟨t, defects, proposals, accepted⟩ := by
  refine Iff.trans ?_ rankFixes?_eq_error_iff
  cases tried with
  | unranked _ ranked =>
    rcases ranked_cases ranked with ⟨w, fault, started, _⟩ | same
    · rw [quiet w] at started
      cases started
    · exact iff_of_true ⟨_, rfl⟩ ⟨_, same.symm⟩
  | walked _ ranked _ =>
    rcases ranked_cases ranked with ⟨_, _, _, same⟩ | same
    · cases same
    · refine iff_of_false nofun ?_
      rintro ⟨_, failed⟩
      cases same.trans failed

theorem Tried.writable {proposals : List (List (List Fix))} {walk : Walk defects.length} {accepted : Option Fix}
    (tried : s.Tried t defects b proposals (.ok walk) b') (quiet : ∀ w, (s.atRanking w).1 = none) :
    ¬Search.Unwritable ⟨t, defects, proposals, accepted⟩ := by
  rw [← tried.error_iff quiet]
  exact nofun

theorem PassTrail.unexpected_iff {reported : List Defect} {pass : Pass}
    (trail : s.PassTrail reported t defects b pass xs b') (quiet : ∀ w, (s.atRanking w).1 = none) :
    pass.Unexpected ↔ ∃ x ∈ xs, x.Unwritable := by
  induction trail with
  | clean => exact iff_of_false nofun nofun
  | unranked _ tried =>
    exact iff_of_true ⟨_, rfl⟩ ⟨_, List.mem_cons_self, (tried.error_iff quiet _).mp ⟨_, rfl⟩⟩
  | unjudged _ tried | exhausted _ tried | fresh tried =>
    refine iff_of_false nofun ?_
    rintro ⟨x, member, unwritable⟩
    cases List.mem_singleton.mp member
    exact tried.writable quiet unwritable
  | again tried _ _ _ _ ih =>
    rw [List.exists_mem_cons_iff, or_iff_right (tried.writable quiet)]
    exact ih

theorem RoundTrail.unexpected_iff {r : Round} (trail : s.RoundTrail t b r xs b')
    (quiet : ∀ w, (s.atRanking w).1 = none) :
    (∃ reported pass, r = .worked reported pass ∧ pass.Unexpected) ↔ ∃ x ∈ xs, x.Unwritable := by
  cases trail with
  | idle _ other =>
    refine iff_of_false ?_ nofun
    rintro ⟨reported, pass, same, _⟩
    exact other reported pass same
  | worked _ _ _ _ _ pass =>
    rw [← pass.unexpected_iff quiet]
    constructor
    · rintro ⟨_, _, same, unexpected⟩
      cases same
      exact unexpected
    · exact fun unexpected => ⟨_, _, rfl, unexpected⟩

/-- An iteration brings an unexpected failure only by an unexpected end of its pass. -/
theorem ending?_unexpected_iff {r : Round} {budget : Int} {steps : List HealingStep} :
    (∃ f, r.ending? budget steps = some (.failed (.unexpected f))) ↔
      ∃ reported pass, r = .worked reported pass ∧ pass.Unexpected := by
  cases r with
  | cancelled | unjudged e | clean => exact iff_of_false nofun nofun
  | worked reported pass =>
    obtain ⟨current, remaining, applied, ending⟩ := pass
    cases ending with
    | finished =>
      refine iff_of_false ?_ ?_
      · rintro ⟨f, ends⟩
        obtain ⟨_, _, same⟩ := Option.map_eq_some_iff.mp ends
        cases same
      · rintro ⟨_, _, same, f, failed⟩
        cases same
        cases failed
    | failed failure =>
      constructor
      · rintro ⟨f, ends⟩
        cases ends
        exact ⟨_, _, rfl, f, rfl⟩
      · rintro ⟨_, _, same, f, failed⟩
        cases same
        cases failed
        exact ⟨f, rfl⟩

/-- The session ends unexpectedly exactly when one of its searches met a proposal that cannot be
written out. -/
theorem Trail.unexpected_iff {left : Nat} {c last : Course} {ending : Ending}
    (trail : s.Trail left c b xs last ending b') (quiet : ∀ w, (s.atRanking w).1 = none) :
    (∃ f, ending = .failed (.unexpected f)) ↔ ∃ x ∈ xs, x.Unwritable := by
  induction trail with
  | spent => exact iff_of_false nofun nofun
  | ended round stops =>
    rw [← round.unexpected_iff quiet, ← ending?_unexpected_iff, stops]
    simp only [Option.some.injEq]
  | next round goes _ ih =>
    have first := (not_congr (round.unexpected_iff quiet)).mp fun unexpected => by
      obtain ⟨f, stops⟩ := ending?_unexpected_iff.mpr unexpected
      rw [goes] at stops
      cases stops
    rw [ih]
    constructor
    · rintro ⟨x, member, unwritable⟩
      exact ⟨x, List.mem_append_right _ member, unwritable⟩
    · rintro ⟨x, member, unwritable⟩
      rcases List.mem_append.mp member with earlier | later
      · exact (first ⟨x, earlier, unwritable⟩).elim
      · exact ⟨x, later, unwritable⟩

theorem stopReason?_ne_error {steps : List HealingStep} {budget remaining : Int} :
    stopReason? steps budget remaining ≠ some .error := by
  unfold stopReason?
  split
  · nofun
  · split_ifs <;> nofun

theorem Trail.stopped_ne_error {left : Nat} {c last : Course} {ending : Ending}
    (trail : s.Trail left c b xs last ending b') : ending ≠ .stopped .error := by
  induction trail with
  | spent => nofun
  | @ended _ _ _ r _ _ _ _ _ stops =>
    rintro rfl
    cases r with
    | cancelled | unjudged e | clean => cases stops
    | worked reported pass =>
      obtain ⟨current, remaining, applied, ending⟩ := pass
      cases ending with
      | failed f => cases stops
      | finished =>
        obtain ⟨reason, due, same⟩ := Option.map_eq_some_iff.mp stops
        cases same
        exact stopReason?_ne_error due
  | next _ _ _ ih => exact ih

/-- Without a fault at the start of a ranking, a session fails unexpectedly exactly if it is proposed something
that cannot be written out. -/
theorem unexpected_iff (s : Session ω) (quiet : ∀ w, (s.atRanking w).1 = none) (b : Bench ω) :
    (s.run b).1.stopReason = .error ↔ ∃ x ∈ (s.searches b).1, x.Unwritable := by
  obtain ⟨c, ending, b₁, trail, _, _, _, reason⟩ := s.run_trail b
  rw [← trail.unexpected_iff quiet]
  have orderly := trail.stopped_ne_error
  cases ending with
  | stopped reason' =>
    refine iff_of_false ?_ nofun
    rintro error
    rcases reason with same | ⟨_, same⟩
    · exact orderly (congrArg Ending.stopped (same.symm.trans error))
    · cases same.symm.trans error
  | failed f =>
    have same : (s.run b).1.stopReason = f.reason := by
      rcases reason with same | ⟨⟨_, stopped⟩, _⟩
      · exact same
      · cases stopped
    rw [same]
    cases f with
    | oracle e => exact iff_of_false nofun nofun
    | unexpected f => exact iff_of_true rfl ⟨f, rfl⟩

end Session

/-- On texts that can be written out, the oracle says nothing that cannot. -/
def Oracle.Writes (o : Oracle ω) : Prop :=
  ∀ t w found, t.isWritable → (o.judge t w).1 = .ok found → ∀ d ∈ found, d.message.isWritable

/-- Nor do the verdicts that are remembered. -/
def Memo.Writes (m : Memo) : Prop :=
  ∀ t found, t.isWritable → m.find? t = some found → ∀ d ∈ found, d.message.isWritable

theorem Memo.Writes.grows {o : Oracle ω} {before after : Memo} (writes : before.Writes)
    (grows : Memo.Grows o before after) (answers : o.Writes) : after.Writes := by
  intro t found whole known
  rcases grows.answered known with earlier | ⟨w, answer⟩
  · exact writes t found whole earlier
  · exact answers t w found whole answer

namespace Session

/-- What the oracle and the generators of the session say can be written out where what they are told can. -/
structure Writes (s : Session ω) : Prop where
  oracle : s.oracle.Writes
  generators : ∀ g ∈ s.generators, g.Writes

variable {s : Session ω} {t : Text} {defects : List Defect} {b b' : Bench ω} {xs : List Search}

theorem Writes.tried {proposals : List (List (List Fix))} {result : Except Fault (Walk defects.length)}
    (writes : s.Writes) (tried : s.Tried t defects b proposals result b') (whole : t.isWritable)
    (said : ∀ d ∈ defects, d.message.isWritable) : ∀ f ∈ proposals.flatten.flatten, f.Writable := by
  intro f member
  obtain ⟨_, proposed⟩ := tried.proposed
  have made := congrArg Prod.fst (Bench.atDesk_eq_iff.mp proposed).1
  replace member : f ∈ (Generator.proposals s.generators s.generatorLimit t defects b.desk).1.flatten.flatten := by
    rw [made]
    exact member
  obtain ⟨d, reported, g, working, x, offered⟩ := Generator.exists_of_mem_proposals member
  exact writes.generators g working d t x (said d reported) whole f offered

/-- Only what was proposed is accepted. -/
theorem Tried.mem_proposals {proposals : List (List (List Fix))} {fix : Fix} {healed : Text}
    {after : List Defect} {fewer : after.length < defects.length}
    (tried : s.Tried t defects b proposals (.ok (.accepted fix healed after fewer)) b') :
    fix ∈ proposals.flatten.flatten := by
  cases tried with
  | walked _ ranked walked =>
    rcases ranked_cases ranked with ⟨_, _, _, same⟩ | same
    · cases same
    · obtain ⟨passed, rest, order, _⟩ := (firstImproving_sound walked).2
      unfold rankFixes? at same
      split at same
      · cases same
      · cases same
        exact mem_of_mem_rankFixes (order ▸ List.mem_append_right passed List.mem_cons_self)

/-- A search on a text that can be written out leads to such a text, with a verdict that can be. -/
theorem Writes.accepted {proposals : List (List (List Fix))} {fix : Fix} {healed : Text} {after : List Defect}
    {fewer : after.length < defects.length} (writes : s.Writes)
    (tried : s.Tried t defects b proposals (.ok (.accepted fix healed after fewer)) b') (whole : t.isWritable)
    (said : ∀ d ∈ defects, d.message.isWritable) (memo : b.memo.Writes) :
    healed.isWritable ∧ (∀ d ∈ Defect.prioritize after, d.message.isWritable) ∧ b'.memo.Writes := by
  have memo := memo.grows tried.searched.grows writes.oracle
  obtain ⟨applied, known⟩ := tried.searched.accepted
  have healedWhole := applyEdits_isWritable whole (writes.tried tried whole said fix tried.mem_proposals) applied
  refine ⟨healedWhole, fun d member => ?_, memo⟩
  exact memo healed after healedWhole known d (List.mem_mergeSort.mp member)

theorem Writes.pass {reported : List Defect} {pass : Pass} (writes : s.Writes)
    (trail : s.PassTrail reported t defects b pass xs b') (whole : t.isWritable)
    (said : ∀ d ∈ defects, d.message.isWritable) (memo : b.memo.Writes) :
    pass.current.isWritable ∧ ∀ x ∈ xs, ¬x.Unwritable := by
  have searched : ∀ {t defects proposals result b b'} (accepted : Option Fix),
      s.Tried t defects b proposals result b' → t.isWritable → (∀ d ∈ defects, d.message.isWritable) →
      ¬Search.Unwritable ⟨t, defects, proposals, accepted⟩ := by
    rintro t defects proposals result b b' accepted tried whole said ⟨f, member, unwritable⟩
    exact unwritable (writes.tried tried whole said f member)
  induction trail with
  | clean => exact ⟨whole, nofun⟩
  | unranked _ tried | unjudged _ tried | exhausted _ tried =>
    exact ⟨whole, List.forall_mem_singleton.mpr (searched none tried whole said)⟩
  | fresh tried =>
    refine ⟨(writes.accepted tried whole said memo).1, ?_⟩
    exact List.forall_mem_singleton.mpr (searched _ tried whole said)
  | again tried _ same _ _ ih =>
    obtain ⟨healed, after, later⟩ := writes.accepted tried whole said memo
    obtain ⟨current, rest⟩ := ih healed after (same ▸ later)
    exact ⟨current, List.forall_mem_cons.mpr ⟨searched _ tried whole said, rest⟩⟩

/-- From a text that can be written out, a round of such generators arrives at one. -/
theorem Writes.round {r : Round} (writes : s.Writes) (trail : s.RoundTrail t b r xs b') (whole : t.isWritable)
    (memo : b.memo.Writes) : (r.arrival t).isWritable ∧ ∀ x ∈ xs, ¬x.Unwritable := by
  cases trail with
  | idle _ other =>
    refine ⟨?_, nofun⟩
    cases r with
    | cancelled | unjudged e | clean => exact whole
    | worked reported pass => exact (other reported pass rfl).elim
  | worked _ judging _ same _ pass =>
    have memo := memo.grows (verdict_grows judging) writes.oracle
    have known := (knows_of_verdict judging).verdict
    refine writes.pass pass whole (fun d member => ?_) (same ▸ memo)
    exact memo t _ whole known d (List.mem_mergeSort.mp member)

/-- No search of a whole run meets a proposal that cannot be written out. -/
theorem Writes.trail {left : Nat} {c last : Course} {ending : Ending} (writes : s.Writes)
    (trail : s.Trail left c b xs last ending b') (whole : c.current.isWritable) (memo : b.memo.Writes) :
    ∀ x ∈ xs, ¬x.Unwritable := by
  induction trail with
  | spent => exact nofun
  | ended round => exact (writes.round round whole memo).2
  | next round _ _ ih =>
    obtain ⟨arrival, here⟩ := writes.round round whole memo
    refine List.forall_mem_append.mpr ⟨here, ih ?_ (memo.grows round.iterated.grows writes.oracle)⟩
    rw [Course.current_after]
    exact arrival

theorem Writes.searches (writes : s.Writes) (whole : s.text.isWritable) (memo : b.memo.Writes) :
    ∀ x ∈ (s.searches b).1, ¬x.Unwritable := by
  obtain ⟨c, ending, b₁, trail, _⟩ := s.run_trail b
  exact writes.trail trail whole memo

/-- A session with the standard generators, whose rankings start without a fault. -/
structure Standard (s : Session ω) (tuning : Tuning) (manual : Text) (names : Option (List Text))
    (client : Option (Client ω)) : Prop where
  generators : s.generators = standardGenerators tuning manual names client
  quiet : ∀ w, (s.atRanking w).1 = none

/-- With the standard generators, whatever the oracle and the model do, the one way to an unexpected failure is
a proposed edit that cannot be written out. There is none if the text, the template for bindings and the known
names can be written out, and with them what the oracle says. -/
theorem unexpected_iff_unwritable {s : Session ω} {tuning : Tuning} {manual : Text} {names : Option (List Text)}
    {client : Option (Client ω)} (standard : s.Standard tuning manual names client) (w : ω) :
    ((s.run (Bench.fresh w)).1.stopReason = .error ↔
      ∃ x ∈ (s.searches (Bench.fresh w)).1, ∃ f ∈ x.emitted, ∃ e ∈ f.edits, ∃ t ∈ e.text, ¬t.isWritable) ∧
    (s.text.isWritable → tuning.bindingTemplate.Writable → (∀ ns ∈ names, ∀ n ∈ ns, Text.isWritable n) →
      s.oracle.Writes → (s.run (Bench.fresh w)).1.stopReason ≠ .error) := by
  have causes := s.unexpected_iff standard.quiet (Bench.fresh w)
  refine ⟨?_, fun whole template known oracle error => ?_⟩
  · rw [causes]
    simp only [Search.Unwritable, Fix.Writable, not_forall, exists_prop]
  · have writes : s.Writes := ⟨oracle, standard.generators ▸ standardGenerators_write template known⟩
    obtain ⟨x, member, unwritable⟩ := causes.mp error
    have forgetful : (Bench.fresh w).memo.Writes := fun _ _ _ known => by cases known
    exact writes.searches whole forgetful x member unwritable

/-- A session with the standard generators on a text of which nothing is wanted but that it does not end in a
blank. -/
def scrubbing (t : Text) : Session Unit where
  id := "s"
  text := t
  oracle := fun t w =>
    (.defects (if t.endsWith " " then
      [⟨"blank at the end", .error, some Position.textStart, some "trailing-whitespace", none⟩] else []), w)
  generators := standardGenerators Tuning.standard "" (some ["x"]) none
  maxIterations := 5
  oracleLimit := .none
  generatorLimit := .none
  manual := ""
  cancelled := fun _ => false
  atRanking := fun w => (none, w)

theorem scrubbing_standard (t : Text) : (scrubbing t).Standard Tuning.standard "" (some ["x"]) none where
  generators := rfl
  quiet _ := rfl

theorem scrubbing_writes (t : Text) : (scrubbing t).oracle.Writes := by
  intro u w found _ answer d member
  have same : (if u.endsWith " " then [_] else []) = found := Except.ok.inj answer
  rw [← same] at member
  split_ifs at member
  · cases List.mem_singleton.mp member
    exact Text.isWritable_ofString _
  · cases member

/-- The line is stripped of its blank. -/
theorem scrubbing_succeeds :
    ((scrubbing "x ").run (Bench.fresh ())).1.stopReason ≠ .error ∧
      ((scrubbing "x ").run (Bench.fresh ())).1.healed = "x" := by
  refine ⟨?_, by decide +kernel⟩
  have never := (unexpected_iff_unwritable (scrubbing_standard "x ") ()).2
  exact never (by decide) rfl (by decide) (scrubbing_writes "x ")

/-- Half of a surrogate pair in front of the blank makes the session fail, though the oracle always answers. -/
theorem scrubbing_fails :
    let text : Text := [⟨0xD800, by decide⟩, CodePoint.ofChar ' ']
    ((scrubbing text).run (Bench.fresh ())).1.stopReason = .error ∧
      ((scrubbing text).run (Bench.fresh ())).1.steps = [] ∧
      ∀ t w, ∃ found, ((scrubbing text).oracle.judge t w).1 = .ok found := by
  refine ⟨by decide +kernel, by decide +kernel, fun t w => ⟨_, rfl⟩⟩

end Session

end Mender
