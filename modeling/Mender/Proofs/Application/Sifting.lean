import Mender.Proofs.Application

namespace Mender

/-- The fixes that are kept when all are tried in order, and the text that they lead to. A fix is kept if it applies to
the text at that moment and leaves fewer defects in it. -/
inductive Sifted (judge : Text → Except OracleError (List Defect)) : Text → List Fix → List Fix → Text → Prop
  | done {t} : Sifted judge t [] [] t
  | unfit {t u f fixes kept e} : f.apply t = .error e → Sifted judge t fixes kept u →
      Sifted judge t (f :: fixes) kept u
  | useless {t u v f fixes kept old new} : f.apply t = .ok v → judge t = .ok old → judge v = .ok new →
      old.length ≤ new.length → Sifted judge t fixes kept u → Sifted judge t (f :: fixes) kept u
  | helps {t u v f fixes kept old new} : f.apply t = .ok v → judge t = .ok old → judge v = .ok new →
      new.length < old.length → Sifted judge v fixes kept u → Sifted judge t (f :: fixes) (f :: kept) u

/-- One of the fixes cannot be judged: it applies to the text at that moment, and the oracle fails on this text or on
what the fix makes of it. -/
def Unjudged (judge : Text → Except OracleError (List Defect)) (t : Text) (fixes : List Fix) (e : OracleError) :
    Prop :=
  ∃ before f after kept u v, fixes = before ++ f :: after ∧ Sifted judge t before kept u ∧ f.apply u = .ok v ∧
    (judge u = .error e ∨ (∃ old, judge u = .ok old) ∧ judge v = .error e)

variable {judge : Text → Except OracleError (List Defect)} {t u v : Text} {f : Fix} {fixes kept : List Fix}
  {e : OracleError}

namespace Sifted

theorem sublist (sifted : Sifted judge t fixes kept u) : kept.Sublist fixes := by
  induction sifted with
  | done => exact .slnil
  | unfit _ _ ih => exact ih.cons _
  | useless _ _ _ _ _ ih => exact ih.cons _
  | helps _ _ _ _ _ ih => exact ih.cons_cons _

theorem foldlM_apply (sifted : Sifted judge t fixes kept u) :
    kept.foldlM (fun t f => f.apply t) t = .ok u := by
  induction sifted with
  | done => rfl
  | unfit _ _ ih => exact ih
  | useless _ _ _ _ _ ih => exact ih
  | helps applied _ _ _ _ ih =>
    rw [List.foldlM_cons, applied]
    exact ih

/-- A text that was changed has fewer defects. -/
theorem fewer (sifted : Sifted judge t fixes kept u) :
    u = t ∨ ∃ old new, judge t = .ok old ∧ judge u = .ok new ∧ new.length < old.length := by
  induction sifted with
  | done => exact Or.inl rfl
  | unfit _ _ ih => exact ih
  | useless _ _ _ _ _ ih => exact ih
  | @helps t u v _ _ _ old new _ before after less _ ih =>
    refine Or.inr ?_
    rcases ih with rfl | ⟨middle, last, atMiddle, atLast, further⟩
    · exact ⟨old, new, before, after, less⟩
    · have same : middle = new := Except.ok.inj (atMiddle.symm.trans after)
      subst same
      exact ⟨old, last, before, atLast, Nat.lt_trans further less⟩

/-- After some fixes were tried, the rest is tried on the text that they lead to. -/
theorem siftJudged_append {before : List Fix} (sifted : Sifted judge t before kept u) (after : List Fix) :
    siftJudged judge t (before ++ after) =
      (siftJudged judge u after).map fun (healed, more) => (healed, kept ++ more) := by
  induction sifted with
  | @done t =>
    rw [List.nil_append]
    cases siftJudged judge t after <;> rfl
  | unfit unfit _ ih =>
    rw [List.cons_append, siftJudged, unfit]
    exact ih
  | useless applied old new less _ ih =>
    simp only [List.cons_append, siftJudged, applied, old, new, if_neg (Nat.not_lt.mpr less)]
    exact ih
  | @helps t u _ _ _ _ _ _ applied old new less _ ih =>
    simp only [List.cons_append, siftJudged, applied, old, new, if_pos less, ih]
    cases siftJudged judge u after <;> rfl

end Sifted

/-- Where no fix in front fails, the failure comes later. -/
theorem Unjudged.cons (unjudged : Unjudged judge v fixes e)
    (step : ∀ before kept u, Sifted judge v before kept u → ∃ all, Sifted judge t (f :: before) all u) :
    Unjudged judge t (f :: fixes) e := by
  obtain ⟨before, g, after, kept, u, w, rfl, sifted, rest⟩ := unjudged
  obtain ⟨all, sifted⟩ := step before kept u sifted
  exact ⟨f :: before, g, after, all, u, w, rfl, sifted, rest⟩

theorem siftJudged_cases (judge : Text → Except OracleError (List Defect)) (t : Text) (fixes : List Fix) :
    (∃ kept u, siftJudged judge t fixes = .ok (u, kept) ∧ Sifted judge t fixes kept u) ∨
      ∃ e, siftJudged judge t fixes = .error e ∧ Unjudged judge t fixes e := by
  induction fixes generalizing t with
  | nil => exact Or.inl ⟨[], t, rfl, .done⟩
  | cons f fixes ih =>
    rw [siftJudged]
    cases applied : f.apply t with
    | error _ =>
      rcases ih t with ⟨kept, u, run, sifted⟩ | ⟨e, run, unjudged⟩
      · exact Or.inl ⟨kept, u, run, .unfit applied sifted⟩
      · exact Or.inr ⟨e, run, unjudged.cons fun _ _ _ sifted => ⟨_, .unfit applied sifted⟩⟩
    | ok v =>
      dsimp only
      cases atOld : judge t with
      | error e => exact Or.inr ⟨e, rfl, [], f, fixes, [], t, v, rfl, .done, applied, Or.inl atOld⟩
      | ok old =>
        dsimp only
        cases atNew : judge v with
        | error e => exact Or.inr ⟨e, rfl, [], f, fixes, [], t, v, rfl, .done, applied, Or.inr ⟨⟨old, atOld⟩, atNew⟩⟩
        | ok new =>
          dsimp only
          by_cases less : new.length < old.length
          · rw [if_pos less]
            rcases ih v with ⟨kept, u, run, sifted⟩ | ⟨e, run, unjudged⟩
            · exact Or.inl ⟨f :: kept, u, by rw [run]; rfl, .helps applied atOld atNew less sifted⟩
            · exact Or.inr ⟨e, by rw [run]; rfl, unjudged.cons fun _ _ _ sifted =>
                ⟨_, .helps applied atOld atNew less sifted⟩⟩
          · rw [if_neg less]
            have more := Nat.not_lt.mp less
            rcases ih t with ⟨kept, u, run, sifted⟩ | ⟨e, run, unjudged⟩
            · exact Or.inl ⟨kept, u, run, .useless applied atOld atNew more sifted⟩
            · exact Or.inr ⟨e, run, unjudged.cons fun _ _ _ sifted =>
                ⟨_, .useless applied atOld atNew more sifted⟩⟩

theorem siftJudged_eq_ok_iff : siftJudged judge t fixes = .ok (u, kept) ↔ Sifted judge t fixes kept u := by
  constructor
  · intro run
    rcases siftJudged_cases judge t fixes with ⟨kept', u', run', sifted⟩ | ⟨e, run', _⟩
    · rw [run] at run'
      cases run'
      exact sifted
    · rw [run] at run'
      cases run'
  · intro sifted
    have all := sifted.siftJudged_append []
    simpa [siftJudged, Except.map] using all

theorem siftJudged_eq_error_iff : siftJudged judge t fixes = .error e ↔ Unjudged judge t fixes e := by
  constructor
  · intro run
    rcases siftJudged_cases judge t fixes with ⟨kept, u, run', _⟩ | ⟨e', run', unjudged⟩
    · rw [run] at run'
      cases run'
    · rw [run] at run'
      cases run'
      exact unjudged
  · rintro ⟨before, f, after, kept, u, v, rfl, sifted, applied, failed⟩
    rw [sifted.siftJudged_append]
    rcases failed with atOld | ⟨⟨old, atOld⟩, atNew⟩
    · simp only [siftJudged, applied, atOld, Except.map]
    · simp only [siftJudged, applied, atOld, atNew, Except.map]

/-- Fixes that can be written out are applied with an oracle that goes by the text. Only the oracle can fail, and it
fails exactly if a text that has to be judged for a ranked fix cannot be judged. Otherwise the ranked fixes that help
one after the other are kept and no others, and the text that they lead to is the one that was given or has fewer
defects. -/
theorem applyFixes_sifts {ω : Type} {o : Oracle ω} {answers : Answers} (follows : o.Follows answers)
    (writable : ∀ f ∈ fixes, f.Writable) (limit : Limit) (t : Text) {b : Bench ω}
    (repeats : b.memo.Repeats answers) :
    ∃ ranked, rankFixes? fixes = .ok ranked ∧
      (∀ fault, (applyFixes o limit t fixes b).1 ≠ .error (.ranking fault)) ∧
      (∀ e, (applyFixes o limit t fixes b).1 = .error (.oracle e) ↔
        Unjudged (answers.judgement limit) t ranked e) ∧
      (∀ u, (applyFixes o limit t fixes b).1 = .ok u ↔
        ∃ kept, Sifted (answers.judgement limit) t ranked kept u) ∧
      ∀ kept u, Sifted (answers.judgement limit) t ranked kept u →
        kept.Sublist ranked ∧ kept.foldlM (fun t f => f.apply t) t = .ok u ∧
          (u = t ∨ ∃ old new, answers.judgement limit t = .ok old ∧ answers.judgement limit u = .ok new ∧
            new.length < old.length) := by
  refine ⟨rankFixes fixes, rankFixes?_of_writable writable, ?_⟩
  have result : (keepFixes o limit t fixes b).1 = _ := (keepFixes_yields follows writable t).result repeats
  rw [applyFixes_eq_keepFixes, result]
  refine ⟨fun fault same => ?_, fun e => ?_, fun u => ?_, fun kept u sifted => ?_⟩
  · cases sifting : siftJudged (answers.judgement limit) t (rankFixes fixes) <;> rw [sifting] at same <;> cases same
  · rw [← siftJudged_eq_error_iff]
    cases siftJudged (answers.judgement limit) t (rankFixes fixes) <;> simp [Except.mapError, Except.map]
  · simp only [← siftJudged_eq_ok_iff]
    cases siftJudged (answers.judgement limit) t (rankFixes fixes) <;> simp [Except.mapError, Except.map, Prod.ext_iff]
  · exact ⟨sifted.sublist, sifted.foldlM_apply, sifted.fewer⟩

/-- The answers of an oracle that finds one flaw for each code point, and gives a number in place of a list for texts
that hold a question mark. -/
def flawByFlaw : Answers := fun t =>
  if ('?' : CodePoint) ∈ t then .error (.badList (.notIterable "int"))
  else .ok (t.map fun _ => ⟨"flaw", .error, none, none, none⟩)

/-- The oracle with these answers counts its calls. -/
def flawFinder : Oracle Nat := fun t calls =>
  match flawByFlaw t with
  | .ok found => (.defects found, calls + 1)
  | .error trouble => (.trouble trouble, calls + 1)

theorem flawFinder_follows : flawFinder.Follows flawByFlaw := by
  intro t calls
  unfold Oracle.judge flawFinder flawByFlaw
  by_cases asks : ('?' : CodePoint) ∈ t
  · simp only [if_pos asks]
    rfl
  · simp only [if_neg asks]
    rfl

/-- Replacements of the first line, and of a line that few texts have. -/
def offcuts : List Fix :=
  let cut (start : Position) (text : Text) : Fix :=
    ⟨none, "cut", "", [⟨.replace, start, none, some text⟩], Confidence.zero, .rule⟩
  [cut ⟨9, 1, Position.one_le_succ 8, Position.one_le_one⟩ "", cut .textStart "abcdef", cut .textStart "ab",
    cut .textStart "a", cut .textStart "?"]

theorem offcuts_sifted :
    flawFinder.Follows flawByFlaw ∧ (∀ f ∈ offcuts, f.Writable) ∧
      (Bench.fresh 0).memo.Repeats flawByFlaw ∧
      ∃ ranked, rankFixes? offcuts = .ok ranked ∧
        (∀ fault, (applyFixes flawFinder .none "abc" offcuts (Bench.fresh 0)).1 ≠ .error (.ranking fault)) ∧
        (∀ e, (applyFixes flawFinder .none "abc" offcuts (Bench.fresh 0)).1 = .error (.oracle e) ↔
          Unjudged (flawByFlaw.judgement .none) "abc" ranked e) ∧
        (∀ u, (applyFixes flawFinder .none "abc" offcuts (Bench.fresh 0)).1 = .ok u ↔
          ∃ kept, Sifted (flawByFlaw.judgement .none) "abc" ranked kept u) ∧
        ∀ kept u, Sifted (flawByFlaw.judgement .none) "abc" ranked kept u →
          kept.Sublist ranked ∧ kept.foldlM (fun t f => f.apply t) ("abc" : Text) = .ok u ∧
            (u = "abc" ∨ ∃ old new, flawByFlaw.judgement .none "abc" = .ok old ∧
              flawByFlaw.judgement .none u = .ok new ∧ new.length < old.length) := by
  have writable : ∀ f ∈ offcuts, f.Writable := by
    simp only [Fix.Writable]
    decide
  exact ⟨flawFinder_follows, writable, .empty, applyFixes_sifts flawFinder_follows writable .none "abc" .empty⟩

/-- The offcut that few texts have room for and the longer one are passed over, the shorter ones are kept, and the
last one cannot be judged. -/
example : Unjudged (flawByFlaw.judgement .none) "abc" offcuts (.badList (.notIterable "int")) :=
  ⟨offcuts.take 4, _, [], [_, _], "a", "?", rfl,
    .unfit rfl (.useless rfl rfl rfl (by decide)
      (.helps rfl rfl rfl (by decide) (.helps rfl rfl rfl (by decide) .done))),
    rfl, Or.inr ⟨⟨_, rfl⟩, rfl⟩⟩

end Mender
