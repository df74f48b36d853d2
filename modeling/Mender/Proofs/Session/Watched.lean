import Mender.Proofs.Session.Alongside

namespace Mender

variable {ω κ : Type}

namespace Desk

/-- The desk with a record beside its world. -/
def beside (d : Desk ω) (record : κ) : Desk (ω × κ) :=
  ⟨(d.world, record), d.journal, d.waits, d.patience, d.turns⟩

def alone (d : Desk (ω × κ)) : Desk ω := ⟨d.world.1, d.journal, d.waits, d.patience, d.turns⟩

theorem sideBySide_beside (record : κ) :
    SideBySide fun (x : Desk ω) (y : Desk (ω × κ)) => y = x.beside record where
  write level speaker message := by
    rintro x _ rfl
    exact ⟨trivial, rfl⟩
  pass number := by
    rintro x _ rfl
    exact ⟨trivial, rfl⟩
  limited patience := by
    rintro x _ rfl
    exact ⟨trivial, rfl⟩

end Desk

def Bench.beside (b : Bench ω) (record : κ) : Bench (ω × κ) := ⟨b.memo, b.desk.beside record⟩

/-- The generator in a world with a record beside it, which it does not see. -/
def Generator.unaware (g : Generator ω) : Generator (ω × κ) where
  name := g.name
  propose d t := fun y =>
    let (reply, x) := g.propose d t y.alone
    (reply, x.beside y.world.2)

/-- The calls of an oracle with their answers, newest first. -/
abbrev Calls := List (Text × Answer)

/-- The oracle with a record of its calls. -/
def Oracle.watched (o : Oracle ω) : Oracle (ω × Calls) := fun t w =>
  let (answer, later) := o t w.1
  (answer, later, (t, answer) :: w.2)

/-- The session with a record of the calls of its oracle. -/
def Session.watched (s : Session ω) : Session (ω × Calls) where
  id := s.id
  text := s.text
  oracle := s.oracle.watched
  generators := s.generators.map Generator.unaware
  maxIterations := s.maxIterations
  oracleLimit := s.oracleLimit
  generatorLimit := s.generatorLimit
  manual := s.manual
  cancelled w := s.cancelled w.1
  atRanking w := ((s.atRanking w.1).1, (s.atRanking w.1).2, w.2)
  budgetText := s.budgetText

theorem Generator.unaware_alongside (g : Generator ω) (record : κ) :
    g.Alongside (fun x y => y = x.beside record) g.unaware where
  name := rfl
  propose d t := by
    rintro x _ rfl
    exact ⟨rfl, rfl⟩

/-- A memo that holds what it held at first, and the answers of recorded calls about texts that it did not
know, one call for each text. -/
structure Recorded (base m : Memo) (calls : Calls) : Prop where
  once : (calls.map Prod.fst).Nodup
  unknown : ∀ call ∈ calls, base.find? call.1 = none
  counted : m.calls = base.calls + calls.length
  find?_iff : ∀ t found, m.find? t = some found ↔
    base.find? t = some found ∨ ∃ answer, (t, answer) ∈ calls ∧ answer.coerce = .ok found

namespace Recorded

variable {base m : Memo} {calls : Calls} {t : Text} {answer : Answer}

theorem nil : Recorded base base [] where
  once := .nil
  unknown := by simp
  counted := rfl
  find?_iff := by simp

/-- One more call, about a text that has no verdict and was not asked for before. -/
theorem asked (recorded : Recorded base m calls) {result : Except OracleError (List Defect)}
    (unknown : m.find? t = none) (new : ∀ call ∈ calls, call.1 ≠ t)
    (ended : ∀ found, result = .ok found ↔ answer.coerce = .ok found) :
    Recorded base (m.asked t result) ((t, answer) :: calls) where
  once := by
    rw [List.map_cons, List.nodup_cons]
    refine ⟨fun member => ?_, recorded.once⟩
    obtain ⟨call, called, same⟩ := List.mem_map.mp member
    exact new call called same
  unknown := by
    refine List.forall_mem_cons.mpr ⟨?_, recorded.unknown⟩
    refine Option.eq_none_iff_forall_ne_some.mpr fun found known => ?_
    have kept := (recorded.find?_iff t found).mpr (Or.inl known)
    rw [unknown] at kept
    cases kept
  counted := by
    rw [Memo.calls_asked, recorded.counted, List.length_cons, Nat.add_assoc]
  find?_iff u found := by
    rw [Memo.find?_asked unknown, recorded.find?_iff, ended, or_assoc]
    refine or_congr_right ?_
    constructor
    · rintro (⟨earlier, called, answered⟩ | ⟨rfl, answered⟩)
      · exact ⟨earlier, List.mem_cons_of_mem _ called, answered⟩
      · exact ⟨answer, List.mem_cons_self, answered⟩
    · rintro ⟨given, called, answered⟩
      rcases List.mem_cons.mp called with same | earlier
      · cases same
        exact Or.inr ⟨rfl, answered⟩
      · exact Or.inl ⟨given, earlier, answered⟩

end Recorded

/-- A bench, and the bench of the watched session beside it. Until something has failed, every text that
the oracle was called for has its verdict. -/
def Watching (base : Memo) (failed : Bool) (b : Bench ω) (b' : Bench (ω × Calls)) : Prop :=
  ∃ calls, b' = b.beside calls ∧ Recorded base b.memo calls ∧
    (failed = false → ∀ call ∈ calls, b.memo.find? call.1 ≠ none)

theorem Bench.Paired.eq_beside {m : Memo} {record : κ} {b : Bench ω} {b' : Bench (ω × κ)}
    (paired : Bench.Paired m (fun x y => y = x.beside record) b b') : b' = b.beside record := by
  obtain ⟨memo, memo', desk⟩ := paired
  obtain ⟨_, _⟩ := b'
  subst memo desk
  rw [beside, ← memo']

namespace Bench

variable {limit : Limit} {t : Text} {b : Bench ω}

/-- A look-up that calls no oracle leaves the record as it is. -/
theorem verdict_beside_idle (o : Oracle ω) (idle : limit.faultUnlessBlank? ≠ none ∨ b.memo.find? t ≠ none)
    (calls : Calls) :
    verdict o.watched limit t (b.beside calls) =
        ((verdict o limit t b).1, (verdict o limit t b).2.beside calls) ∧
      (verdict o limit t b).2.memo = b.memo := by
  have paired : Bench.Paired b.memo (fun x y => y = x.beside calls) b (b.beside calls) := ⟨rfl, rfl, rfl⟩
  obtain ⟨same, last⟩ : (verdict o limit t b).1 = (verdict o.watched limit t (b.beside calls)).1 ∧ _ :=
    verdict_kept (Desk.sideBySide_beside calls) idle b _ paired
  exact ⟨Prod.ext same.symm last.eq_beside, last.memo⟩

/-- A look-up that calls the oracle adds this call to the record. -/
theorem verdict_beside_asked (o : Oracle ω) (keepable : limit.faultUnlessBlank? = none)
    (unknown : b.memo.find? t = none) (calls : Calls) :
    verdict o.watched limit t (b.beside calls) =
        ((verdict o limit t b).1, (verdict o limit t b).2.beside ((t, (o t b.desk.world).1) :: calls)) ∧
      (verdict o limit t b).2.memo = b.memo.asked t (verdict o limit t b).1 := by
  have side := Desk.sideBySide_beside (ω := ω) (κ := Calls)
  have paired : Bench.Paired b.memo (fun x y => y = x.beside calls) b (b.beside calls) := ⟨rfl, rfl, rfl⟩
  have turned : Agrees (fun d d' => d' = d.beside calls ∧ d.world = b.desk.world)
      (fun _ d d' => d' = d.beside ((t, (o t b.desk.world).1) :: calls))
      (Desk.turn (o.judge t)) (Desk.turn (o.watched.judge t)) := by
    rintro d _ ⟨rfl, world⟩
    rw [← world]
    exact ⟨rfl, rfl⟩
  have asked := verdict_asked (m := b.memo) ((side calls).holding (· = b.desk.world)) (side _) keepable
    unknown turned
  obtain ⟨same, last⟩ := asked b _ ⟨rfl, rfl, paired.desk, rfl⟩
  exact ⟨Prod.ext same.symm last.eq_beside, last.memo⟩

/-- A look-up calls the oracle only for a text that is not in the record. -/
theorem verdict_watching (o : Oracle ω) (limit : Limit) (base : Memo) (t : Text) :
    Agrees (Watching base false) (fun result => Watching base !result.isOk) (verdict o limit t)
      (verdict o.watched limit t) := by
  rintro x _ ⟨calls, rfl, recorded, remembered⟩
  have remembered := remembered rfl
  by_cases idle : limit.faultUnlessBlank? ≠ none ∨ x.memo.find? t ≠ none
  · obtain ⟨watched, memo⟩ := verdict_beside_idle o idle calls
    refine ⟨congrArg Prod.fst watched.symm, calls, congrArg Prod.snd watched, ?_⟩
    rw [memo]
    exact ⟨recorded, fun _ => remembered⟩
  · obtain ⟨keepable, unknown⟩ : limit.faultUnlessBlank? = none ∧ x.memo.find? t = none := by
      simpa only [not_or, ne_eq, not_not] using idle
    obtain ⟨watched, memo⟩ := verdict_beside_asked o keepable unknown calls
    have ended := (verdict_looked (Prod.eta (verdict o limit t x)).symm).ok_iff keepable unknown
    have new : ∀ call ∈ calls, call.1 ≠ t := fun call called same => remembered call called (same ▸ unknown)
    refine ⟨congrArg Prod.fst watched.symm, _, congrArg Prod.snd watched, ?_⟩
    rw [memo]
    refine ⟨recorded.asked unknown new ended, fun well => ?_⟩
    generalize (verdict o limit t x).1 = result at well
    cases result with
    | error e => cases well
    | ok found =>
      refine List.forall_mem_cons.mpr ⟨by simp [Memo.asked], fun call called => ?_⟩
      rw [Memo.asked, Memo.find?_put, if_neg (new call called).symm]
      exact remembered call called

end Bench

namespace Session

variable {s : Session ω} {base : Memo}

theorem watched_parallel (s : Session ω) (base : Memo) : Session.Parallel (Watching base) s s.watched where
  id := rfl
  text := rfl
  manual := rfl
  names := by
    rw [watched, List.map_map]
    rfl
  failing := by
    rintro x _ ⟨calls, rfl, recorded, _⟩
    exact ⟨calls, rfl, recorded, nofun⟩
  write failed level message := by
    rintro x _ ⟨calls, rfl, recorded, remembered⟩
    exact ⟨rfl, calls, rfl, recorded, remembered⟩
  revisit := by
    rintro x _ ⟨calls, rfl, recorded, remembered⟩
    exact ⟨rfl, calls, rfl, recorded, remembered⟩
  verdict := Bench.verdict_watching s.oracle s.oracleLimit base
  candidates defects t := by
    rintro x _ ⟨calls, rfl, recorded, remembered⟩
    have alongside : List.Forall₂ (Generator.Alongside fun x y => y = x.beside calls) s.generators
        s.watched.generators :=
      List.forall₂_map_right_iff.mpr (List.forall₂_same.mpr fun g _ => g.unaware_alongside calls)
    have proposed := Generator.fixesForAll_alongside alongside (Desk.sideBySide_beside calls)
      s.generatorLimit t defects
    obtain ⟨same, last⟩ := Bench.Paired.atDesk (m := x.memo) proposed.agrees x (x.beside calls) ⟨rfl, rfl, rfl⟩
    have memo : (s.candidates defects t x).2.memo = x.memo := last.memo
    refine ⟨same, calls, last.eq_beside, ?_⟩
    rw [memo]
    exact ⟨recorded, remembered⟩
  turn := by
    rintro x _ ⟨calls, rfl, recorded, remembered⟩
    exact ⟨rfl, calls, rfl, recorded, remembered⟩

end Session

end Mender
