import Mathlib.Tactic.Choose
import Mender.Proofs.Bench

namespace Mender

variable {ω ι : Type}

/-- Oracles by their names, put together in panels of panels. -/
inductive Panel (ι : Type) where
  | single (name : ι)
  | joined (parts : List (Panel ι))

namespace Panel

/-- A property of all panels is proved of a joined one from what holds of its parts. -/
@[elab_as_elim, induction_eliminator]
theorem induction {motive : Panel ι → Prop} (single : ∀ name, motive (single name))
    (joined : ∀ parts, (∀ p ∈ parts, motive p) → motive (joined parts)) (p : Panel ι) : motive p :=
  @Panel.rec ι motive (fun parts => ∀ p ∈ parts, motive p) single joined (List.forall_mem_nil _)
    (fun _ _ here later => List.forall_mem_cons.mpr ⟨here, later⟩) p

mutual

/-- The panel as one oracle. -/
def oracle (member : ι → Oracle ω) : Panel ι → Oracle ω
  | single name => member name
  | joined parts => .composite (oracles member parts)

/-- The parts of a panel as oracles. -/
def oracles (member : ι → Oracle ω) : List (Panel ι) → List (Oracle ω)
  | [] => []
  | p :: parts => oracle member p :: oracles member parts

end

mutual

def members : Panel ι → List ι
  | single name => [name]
  | joined parts => allMembers parts

def allMembers : List (Panel ι) → List ι
  | [] => []
  | p :: parts => members p ++ allMembers parts

end

end Panel

theorem Fault.leavingCall_leavingCall (f : Fault) : f.leavingCall.leavingCall = f.leavingCall := by
  unfold leavingCall
  split
  · decide
  · rfl

theorem Answer.exists_badList_of_readItems {items : List Json} {trouble : Trouble}
    (unread : readItems items = .error trouble) : ∃ b, trouble = .badList b := by
  induction items with
  | nil => cases unread
  | cons v items ih =>
    rw [readItems, List.mapM_cons] at unread
    cases first : (Defect.check v).toExcept "Defect" with
    | error r =>
      rw [first] at unread
      cases unread
      exact ⟨_, rfl⟩
    | ok d =>
      rw [first] at unread
      cases rest : readItems items with
      | error trouble =>
        rw [readItems] at rest
        simp only [bind, Except.bind, rest] at unread
        cases unread
        exact ih rest
      | ok found =>
        rw [readItems] at rest
        simp only [bind, Except.bind, rest] at unread
        cases unread

/-- Trouble that a panel passes on is the same trouble. -/
theorem Answer.coerce_trouble {a : Answer} {trouble : Trouble} (troubled : a.coerce = .error trouble) :
    (Answer.trouble trouble).coerce = .error trouble := by
  have bad : (∃ b, trouble = .badList b) → (Answer.trouble trouble).coerce = .error trouble := by
    rintro ⟨b, rfl⟩
    rfl
  cases a with
  | defects found => cases troubled
  | trouble inner =>
    cases inner with
    | badList b | stalled => cases troubled; rfl
    | raised f =>
      cases troubled
      exact congrArg (fun f => Except.error (Trouble.raised f)) f.leavingCall_leavingCall
  | data v =>
    refine bad ?_
    cases v with
    | null => cases troubled
    | bool | int | real => cases troubled; exact ⟨_, rfl⟩
    | array | text | object => exact exists_badList_of_readItems troubled
  | breaking items f =>
    refine bad ?_
    rw [coerce] at troubled
    cases read : readItems items with
    | error inner =>
      rw [read] at troubled
      cases troubled
      exact exists_badList_of_readItems read
    | ok found =>
      rw [read] at troubled
      by_cases ended : f.isA "StopIteration" = true
      · cases (if_pos ended).symm.trans troubled
      · cases (if_neg ended).symm.trans troubled
        exact ⟨.broken f, rfl⟩

namespace Oracle

/-- How a call of an oracle ends that gives defects or has trouble, and what the world is like after it. -/
abbrev Judged (ω : Type) := Except Trouble (List Defect) × ω

/-- What is found first and then what is found in the world after it, if both can be had. -/
def Judged.followedBy (first : Judged ω) (next : ω → Judged ω) : Judged ω :=
  match first with
  | (.error trouble, w) => (.error trouble, w)
  | (.ok found, w) =>
    match next w with
    | (.error trouble, w) => (.error trouble, w)
    | (.ok more, w) => (.ok (found ++ more), w)

namespace Judged

theorem nothing_followedBy (w : ω) (next : ω → Judged ω) : followedBy (.ok [], w) next = next w := by
  rcases ended : next w with ⟨_ | _, _⟩ <;> simp [followedBy, ended]

theorem followedBy_nothing (first : Judged ω) : first.followedBy (fun w => (.ok [], w)) = first := by
  rcases first with ⟨_ | _, _⟩ <;> simp [followedBy]

/-- How oracles are bracketed does not matter for what is asked. -/
theorem followedBy_assoc (first : Judged ω) (second third : ω → Judged ω) :
    (first.followedBy second).followedBy third = first.followedBy fun w => (second w).followedBy third := by
  rcases first with ⟨_ | found, w⟩
  · rfl
  · rcases middle : second w with ⟨_ | more, w'⟩
    · simp [followedBy, middle]
    · rcases last : third w' with ⟨_ | _, _⟩ <;> simp [followedBy, middle, last]

end Judged

variable {os os' : List (Oracle ω)} {t : Text} {w : ω}

theorem judgeAll_cons (o : Oracle ω) (os : List (Oracle ω)) (t : Text) (w : ω) :
    judgeAll (o :: os) t w = Judged.followedBy (o.judge t w) (judgeAll os t) := rfl

/-- Asking two lists of oracles is asking one after the other. -/
theorem judgeAll_append (os os' : List (Oracle ω)) (t : Text) (w : ω) :
    judgeAll (os ++ os') t w = Judged.followedBy (judgeAll os t w) (judgeAll os' t) := by
  induction os generalizing w with
  | nil => exact (Judged.nothing_followedBy w _).symm
  | cons o os ih =>
    rw [List.cons_append, judgeAll_cons, judgeAll_cons, Judged.followedBy_assoc]
    exact congrArg _ (funext ih)

/-- Trouble of some oracles keeps its form when they are one. -/
theorem coerce_judgeAll {trouble : Trouble} {later : ω} (troubled : judgeAll os t w = (.error trouble, later)) :
    (Answer.trouble trouble).coerce = .error trouble := by
  induction os generalizing w with
  | nil => cases troubled
  | cons o os ih =>
    rw [judgeAll_cons] at troubled
    rcases first : o.judge t w with ⟨there | found, w'⟩
    · simp only [first, Judged.followedBy] at troubled
      cases troubled
      exact Answer.coerce_trouble (congrArg Prod.fst first)
    · rcases rest : judgeAll os t w' with ⟨there | more, w''⟩
      · simp only [first, rest, Judged.followedBy] at troubled
        cases troubled
        exact ih rest
      · simp only [first, rest, Judged.followedBy] at troubled
        cases troubled

/-- A composite oracle asks its leaves in order and stops at the first trouble. -/
theorem judge_composite (os : List (Oracle ω)) (t : Text) (w : ω) :
    (composite os).judge t w = judgeAll os t w := by
  rcases ended : judgeAll os t w with ⟨trouble | found, later⟩
  · simp only [judge, composite, ended, coerce_judgeAll ended]
  · simp only [judge, composite, ended]
    rfl

/-- Oracles that answer by the text alone. The world is the list of the members that have been called. -/
def recorded (answers : ι → Text → Answer) (name : ι) : Oracle (List ι) := fun t called =>
  (answers name t, called ++ [name])

section Recorded

variable {answers : ι → Text → Answer} {found : ι → List Defect} {names : List ι} {called : List ι}

/-- When all leaves answer, each is called once and the defects stand in the order of the leaves. -/
theorem judgeAll_recorded (answered : ∀ n ∈ names, (answers n t).coerce = .ok (found n)) :
    judgeAll (names.map (recorded answers)) t called = (.ok (names.flatMap found), called ++ names) := by
  induction names generalizing called with
  | nil => simp [judgeAll]
  | cons n names ih =>
    obtain ⟨here, later⟩ := List.forall_mem_cons.mp answered
    have first : (recorded answers n).judge t called = (.ok (found n), called ++ [n]) := by
      simp only [judge, recorded, here]
    rw [List.map_cons, judgeAll_cons, first]
    simp [Judged.followedBy, ih later]

/-- The first member in trouble ends the row, and nobody after it is called. -/
theorem judgeAll_recorded_of_trouble {before after : List ι} {n : ι} {trouble : Trouble}
    (answered : ∀ m ∈ before, (answers m t).coerce = .ok (found m)) (troubled : (answers n t).coerce = .error trouble) :
    judgeAll ((before ++ n :: after).map (recorded answers)) t called =
      (.error trouble, called ++ before ++ [n]) := by
  rw [List.map_append, judgeAll_append, judgeAll_recorded answered, List.map_cons]
  simp only [Judged.followedBy, judgeAll_cons, judge, recorded, troubled]

end Recorded

end Oracle

theorem Trouble.settle_withWorld {α : Type} (limit : Limit) (trouble : Trouble) (d : Desk ω) (w : ω) :
    (trouble.settle limit : StateM (Desk ω) (Except OracleError α)) { d with world := w } =
      let settled : Except OracleError α × Desk ω := trouble.settle limit d
      (settled.1, { settled.2 with world := w }) := by
  unfold settle OracleError.note
  cases trouble.error limit <;> rfl

section Run

variable {o o' : Oracle ω} {t : Text} {d : Desk ω} {w : ω}

/-- A run sees of an oracle only how it judges. -/
theorem runOracle_congr (alike : o.judge t = o'.judge t) (limit : Limit) :
    runOracle o limit t = runOracle o' limit t := by
  unfold runOracle
  rw [alike]

theorem turn_judge {answer : Except Trouble (List Defect)} (judged : o.judge t d.world = (answer, w)) :
    Desk.turn (o.judge t) d = (answer, { d with world := w }) := by
  change ((o.judge t d.world).1, { d with world := (o.judge t d.world).2 }) = _
  rw [judged]

/-- Without a limit a good answer is passed on as it is. -/
theorem runOracle_none_of_ok {found : List Defect} (judged : o.judge t d.world = (.ok found, w)) :
    runOracle o .none t d = (.ok found, { d with world := w }) := by
  have keepable : Limit.none.faultUnlessBlank? = none := rfl
  unfold runOracle
  simp only [keepable]
  exact StateM.bind_eq_iff.mpr ⟨(), d, rfl, StateM.bind_eq_iff.mpr ⟨_, _, turn_judge judged, rfl⟩⟩

/-- Trouble is settled at the desk it left, with the world the oracle left behind. -/
theorem runOracle_none_of_error {trouble : Trouble} (judged : o.judge t d.world = (.error trouble, w)) :
    runOracle o .none t d = trouble.settle .none { d with world := w } := by
  have keepable : Limit.none.faultUnlessBlank? = none := rfl
  unfold runOracle
  simp only [keepable]
  refine StateM.bind_eq_iff.mpr ⟨(), d, rfl, StateM.bind_eq_iff.mpr ⟨_, _, turn_judge judged, ?_⟩⟩
  cases trouble <;> rfl

end Run

namespace Panel

/-- A panel judges like all its members in a row, however they are grouped. -/
theorem judge_oracle (member : ι → Oracle ω) (p : Panel ι) (t : Text) (w : ω) :
    (p.oracle member).judge t w = Oracle.judgeAll (p.members.map member) t w := by
  induction p generalizing w with
  | single name =>
    rw [oracle, members, List.map_singleton, Oracle.judgeAll_cons]
    exact (Oracle.Judged.followedBy_nothing _).symm
  | joined parts ih =>
    rw [oracle, members, Oracle.judge_composite]
    induction parts generalizing w with
    | nil => rfl
    | cons p parts rest =>
      obtain ⟨here, later⟩ := List.forall_mem_cons.mp ih
      rw [oracles, allMembers, List.map_append, Oracle.judgeAll_cons, Oracle.judgeAll_append, here]
      exact congrArg _ (funext fun w => rest later w)

open Oracle (recorded)

/-- With members that answer by the text alone, a panel joins what they find if all of them find something or nothing,
and has called each in its order. Otherwise a run of it ends as the run of the first member in trouble does, down to the
journal, with the members up to that one called. Panels of the same members run alike under any limit, whatever the
members do. -/
theorem run_flattened (answers : ι → Text → Answer) (p : Panel ι) (t : Text) (d : Desk (List ι)) :
    (∀ found : ι → List Defect, (∀ n ∈ p.members, (answers n t).coerce = .ok (found n)) →
      (p.oracle (recorded answers)).judge t d.world = (.ok (p.members.flatMap found), d.world ++ p.members) ∧
      runOracle (p.oracle (recorded answers)) .none t d =
        (.ok (p.members.flatMap found), { d with world := d.world ++ p.members })) ∧
    (∀ before n after trouble, p.members = before ++ n :: after →
      (∀ m ∈ before, ∃ found, (answers m t).coerce = .ok found) → (answers n t).coerce = .error trouble →
      (p.oracle (recorded answers)).judge t d.world = (.error trouble, d.world ++ before ++ [n]) ∧
      (let alone := runOracle (recorded answers n) .none t d
       alone.1 = .error (trouble.error .none) ∧
       runOracle (p.oracle (recorded answers)) .none t d =
         (alone.1, { alone.2 with world := d.world ++ before ++ [n] }))) ∧
    ∀ (ω : Type) (member : ι → Oracle ω) (q : Panel ι) (limit : Limit), q.members = p.members →
      runOracle (q.oracle member) limit t = runOracle (p.oracle member) limit t := by
  refine ⟨fun found answered => ?_, fun before n after trouble row answered troubled => ?_,
    fun ω member q limit alike => ?_⟩
  · have judged : (p.oracle (recorded answers)).judge t d.world =
        (.ok (p.members.flatMap found), d.world ++ p.members) :=
      (judge_oracle _ p t _).trans (Oracle.judgeAll_recorded answered)
    exact ⟨judged, runOracle_none_of_ok judged⟩
  · choose! found answered using answered
    have judged : (p.oracle (recorded answers)).judge t d.world = (.error trouble, d.world ++ before ++ [n]) := by
      rw [judge_oracle, row]
      exact Oracle.judgeAll_recorded_of_trouble answered troubled
    have aloneJudged : (recorded answers n).judge t d.world = (.error trouble, d.world ++ [n]) :=
      congrArg (·, _) troubled
    have alone := runOracle_none_of_error aloneJudged
    refine ⟨judged, ?_, ?_⟩
    · rw [alone]
      exact (settle_eq _ _ _).1
    · rw [alone, runOracle_none_of_error judged]
      exact (trouble.settle_withWorld _ d _).trans (by rw [trouble.settle_withWorld _ d (d.world ++ [n])])
  · exact runOracle_congr (funext fun w => by rw [judge_oracle, judge_oracle, alike]) limit

-- A member that says itself that it failed is quoted as it is, with nothing around its words.
example : ((Trouble.raised ⟨⟨"BackendError", ["OracleError"]⟩, "backend down"⟩).error .none).message "" =
    ("backend down" : Text) := by decide +kernel

end Panel

end Mender
