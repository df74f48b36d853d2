import Mathlib.Order.Bounds.Defs
import Mender.Proofs.Bench
import Mender.Proofs.Number.PowerOfTwo
import Mender.Retry

namespace Mender

variable {ω α : Type}

namespace RetryPolicy

/-- The wait before a further call, the first being number zero: seconds doubled that often, thirty at most. -/
def pause (number : Nat) : Binary64 := Binary64.ofFraction false (min (twoTo number) 30) 1

variable {number : Nat}

theorem standard_doubled (inRange : number < 1024) (retries : Loose Int) :
    (standard retries).doubled number = .ok (.real (Binary64.ofFraction false (twoTo number) 1)) := by
  have one := Binary64.one_mul_twoTo inRange
  simp only [standard, doubled, if_neg (Nat.not_le.mpr inRange)]
  rw [one]

/-- The cap is passed from the fifth doubling on. -/
theorem pause_eq (number : Nat) :
    pause number = Binary64.ofFraction false (if 5 ≤ number then 30 else twoTo number) 1 := by
  have capped : min (twoTo number) 30 = if 5 ≤ number then 30 else twoTo number := by
    split_ifs with passed
    · have power : 32 ≤ twoTo number := Nat.pow_le_pow_right Nat.two_pos passed
      omega
    · have power : twoTo number ≤ 16 := Nat.pow_le_pow_right Nat.two_pos (by omega : number ≤ 4)
      omega
  rw [pause, capped]

theorem least_pause (inRange : number < 1024) :
    (Amount.real (Binary64.ofFraction false (twoTo number) 1)).least (.real (Binary64.ofFraction false 30 1)) =
      .real (pause number) := by
  have cap : (Binary64.ofFraction false 30 1).code = 0x403E000000000000 := by decide
  have code := Binary64.code_twoTo inRange
  have passed_iff : (Binary64.ofFraction false 30 1).lt (Binary64.ofFraction false (twoTo number) 1) = true ↔
      5 ≤ number := by
    have ranks : (Binary64.ofFraction false 30 1).rank < (Binary64.ofFraction false (twoTo number) 1).rank ↔
        5 ≤ number := by
      change ((Binary64.ofFraction false 30 1).code : Int) < ((Binary64.ofFraction false (twoTo number) 1).code : Int) ↔
        _
      rw [cap, code]
      unfold octave
      omega
    have cap_isNan : (Binary64.ofFraction false 30 1).isNan = false := by decide
    rw [Binary64.lt, cap_isNan, Binary64.isNan_of_isFinite (Binary64.isFinite_twoTo inRange), ← ranks]
    simp
  rw [Amount.least, Amount.lt, pause_eq]
  by_cases passed : 5 ≤ number
  · rw [if_pos (passed_iff.mpr passed), if_pos passed]
  · rw [if_neg (mt passed_iff.mp passed), if_neg passed]

/-- The wait in seconds. -/
theorem toRat_pause (number : Nat) : (Amount.real (pause number)).toRat? = some (min (2 ^ number) 30) := by
  rw [pause_eq]
  by_cases passed : 5 ≤ number
  · have power : (2 : ℚ) ^ 5 ≤ 2 ^ number := pow_le_pow_right₀ one_le_two passed
    rw [if_pos passed, min_eq_right (by linarith)]
    decide
  · have power : (2 : ℚ) ^ number ≤ 2 ^ 4 := pow_le_pow_right₀ one_le_two (by omega)
    rw [if_neg passed, Binary64.toRat_twoTo (by omega), min_eq_left (by linarith)]

theorem standard_delay (inRange : number < 1024) (retries : Loose Int) :
    (standard retries).delay number = .ok (.real (pause number)) := by
  have amount := standard_doubled inRange retries
  rw [delay, amount]
  exact congrArg Except.ok (least_pause inRange)

theorem standard_delay_tooLarge (beyond : 1024 ≤ number) (retries : Loose Int) :
    (standard retries).delay number = .error .tooLarge := by
  have amount : (standard retries).doubled number = .error .tooLarge := if_pos beyond
  rw [delay, amount]
  rfl

end RetryPolicy

namespace Attempt

/-- The attempt as it leaves the call. -/
def leaving : Attempt α → Attempt α
  | raised f => raised f.leavingCall
  | ended => ended

/-- No further call is made after the attempt, however many are left. -/
def settles (retryable : Fault → Bool) : Attempt α → Bool
  | raised f => !retryable f.leavingCall
  | _ => true

end Attempt

section Steps

variable {policy : RetryPolicy} {retryable : Fault → Bool} {label : Text} {call : StateM (Desk ω) (Attempt α)}
  {total : Int} {left made : Nat} {d d' : Desk ω}

/-- A call that settles the matter is the last one. -/
theorem retryFrom_settled {attempt : Attempt α} (ended : call d = (attempt, d'))
    (settled : attempt.settles retryable = true) :
    retryFrom policy retryable label call total left made d = (attempt.leaving, d') := by
  unfold retryFrom
  refine StateM.bind_eq_iff.mpr ⟨attempt, d', ended, ?_⟩
  cases attempt with
  | value | cut => rfl
  | raised f =>
    have last : !retryable f.leavingCall := settled
    simp only [last, if_true]
    rfl

theorem retryFrom_spent (policy : RetryPolicy) (label : Text) (total : Int) (made : Nat) {f : Fault}
    (ended : call d = (.raised f, d')) (again : retryable f.leavingCall = true) :
    ∃ line, retryFrom policy retryable label call total 0 made d =
      (.raised f.leavingCall, { d' with journal := line :: d'.journal }) := by
  unfold retryFrom
  apply Exists.intro
  refine StateM.bind_eq_iff.mpr ⟨_, d', ended, ?_⟩
  simp only [again, Bool.not_true, Bool.false_eq_true, if_false]
  rfl

theorem retryFrom_again (label : Text) (total : Int) (left : Nat) {f : Fault} {pause : Binary64}
    (ended : call d = (.raised f, d')) (again : retryable f.leavingCall = true)
    (amount : policy.delay made = .ok (.real pause)) :
    ∃ line, retryFrom policy retryable label call total (left + 1) made d =
      retryFrom policy retryable label call total left (made + 1)
        { d' with journal := line :: d'.journal, waits := pause :: d'.waits } := by
  conv in retryFrom policy retryable label call total (left + 1) made d => unfold retryFrom
  apply Exists.intro
  refine StateM.bind_eq_iff.mpr ⟨_, d', ended, ?_⟩
  simp only [again, Bool.not_true, Bool.false_eq_true, if_false, amount, Amount.toReal?]
  rfl

theorem retryFrom_overflows {f fault : Fault} (ended : call d = (.raised f, d'))
    (again : retryable f.leavingCall = true) (amount : policy.delay made = .error fault) :
    retryFrom policy retryable label call total (left + 1) made d = (.raised fault, d') := by
  unfold retryFrom
  refine StateM.bind_eq_iff.mpr ⟨_, d', ended, ?_⟩
  simp only [again, Bool.not_true, Bool.false_eq_true, if_false, amount]
  rfl

end Steps

/-- A call that ends as a script says. The world is a record of the calls: for each of them the waits before it. -/
def scriptedCall (script : Nat → Attempt α) : StateM (Desk (List (List Binary64))) (Attempt α) :=
  modifyGet fun d => (script d.world.length, { d with world := d.world ++ [d.waits.reverse] })

def seconds (waits : List Binary64) : List (Option ℚ) := waits.map fun delay => (Amount.real delay).toRat?

/-- Seconds doubled from one to the next, thirty at most. -/
def doublings (number : Nat) : List (Option ℚ) := (List.range number).map fun i => some (min (2 ^ i) 30)

/-- What calling again under a number of retries has to do. With the place of the first call that settles the matter,
counted from one, there are so many calls unless one more than there are retries is fewer; without one, all retries are
used. The last call decides the outcome. Before each call and at the end there has been one wait fewer than calls were
begun, and the waits double up to the cap. -/
structure Persistent (script : Nat → Attempt α) (retryable : Fault → Bool) (retries : Nat)
    (run : Attempt α × Desk (List (List Binary64))) : Prop where
  settled : ∀ j, IsLeast {j | 1 ≤ j ∧ (script (j - 1)).settles retryable = true} j →
    run.2.world.length = min j (retries + 1)
  unsettled : (∀ i, (script i).settles retryable = false) → run.2.world.length = retries + 1
  outcome : run.1 = (script (run.2.world.length - 1)).leaving
  waits : run.2.world.map seconds = (List.range run.2.world.length).map doublings
  waited : seconds run.2.waits.reverse = doublings (run.2.world.length - 1)

section Script

/-- The first waits in order. -/
def pauses (number : Nat) : List Binary64 := (List.range number).map RetryPolicy.pause

theorem seconds_pauses (number : Nat) : seconds (pauses number) = doublings number := by
  rw [seconds, pauses, List.map_map]
  exact List.map_congr_left fun i _ => RetryPolicy.toRat_pause i

/-- A desk after some calls, each made after one wait more than the one before it, and after some waits. -/
def deskAfter (calls waits : Nat) (journal : List Entry) : Desk (List (List Binary64)) :=
  ⟨(List.range calls).map pauses, journal, (pauses waits).reverse, none, 0⟩

variable {script : Nat → Attempt α} {retryable : Fault → Bool} {label : Text} {retries k : Nat}

theorem scriptedCall_deskAfter (script : Nat → Attempt α) (made : Nat) (journal : List Entry) :
    scriptedCall script (deskAfter made made journal) = (script made, deskAfter (made + 1) made journal) := by
  have calls : ((List.range made).map pauses).length = made := by rw [List.length_map, List.length_range]
  change (script ((List.range made).map pauses).length, _) = _
  rw [calls]
  refine congrArg (Prod.mk (script made)) ?_
  simp [deskAfter, List.range_succ]

theorem exists_of_not_settles {attempt : Attempt α} (failing : attempt.settles retryable = false) :
    ∃ f, attempt = .raised f ∧ retryable f.leavingCall = true := by
  cases attempt with
  | value | cut => cases failing
  | raised f => exact ⟨f, rfl, by simpa [Attempt.settles] using failing⟩

/-- While the calls fail and retries are left, each is followed by the next wait. -/
theorem retry_unsettled (label : Text) (within : k ≤ retries) (inRange : k ≤ 1024)
    (failing : ∀ i < k, (script i).settles retryable = false) :
    ∃ journal, retry (.standard (.fit retries)) retryable label (scriptedCall script) (.fresh []) =
      retryFrom (.standard (.fit retries)) retryable label (scriptedCall script) (retries + 1) (retries - k) k
        (deskAfter k k journal) := by
  induction k with
  | zero => exact ⟨[], rfl⟩
  | succ k ih =>
    obtain ⟨journal, run⟩ := ih (by omega) (by omega) fun i before => failing i (by omega)
    obtain ⟨f, raised, again⟩ := exists_of_not_settles (failing k (Nat.lt_succ_self k))
    have ended := scriptedCall_deskAfter script k journal
    rw [raised] at ended
    have amount := RetryPolicy.standard_delay (show k < 1024 by omega) (.fit retries)
    obtain ⟨line, next⟩ := retryFrom_again label (retries + 1) (retries - (k + 1)) ended again amount
    have left : retries - k = retries - (k + 1) + 1 := by omega
    refine ⟨line :: journal, ?_⟩
    rw [run, left, next]
    congr 1
    simp [deskAfter, pauses, List.range_succ]

/-- All calls but the last one fail, and the last one settles the matter or is the last that may be made. -/
theorem retry_last (within : k ≤ retries) (inRange : k ≤ 1024)
    (failing : ∀ i < k, (script i).settles retryable = false)
    (last : (script k).settles retryable = true ∨ k = retries) :
    ∃ journal, retry (.standard (.fit retries)) retryable label (scriptedCall script) (.fresh []) =
      ((script k).leaving, deskAfter (k + 1) k journal) := by
  obtain ⟨journal, run⟩ := retry_unsettled label within inRange failing
  have ended := scriptedCall_deskAfter script k journal
  cases settles : (script k).settles retryable with
  | true => exact ⟨journal, run.trans (retryFrom_settled ended settles)⟩
  | false =>
    obtain rfl : k = retries := last.resolve_left (by simp [settles])
    obtain ⟨f, raised, again⟩ := exists_of_not_settles settles
    rw [raised] at ended ⊢
    obtain ⟨line, spent⟩ := retryFrom_spent (.standard (.fit k)) label (k + 1) k ended again
    refine ⟨line :: journal, ?_⟩
    rw [run, Nat.sub_self, spent]
    rfl

theorem retry_overflows (beyond : 1024 < retries)
    (failing : ∀ i < 1025, (script i).settles retryable = false) :
    ∃ journal, retry (.standard (.fit retries)) retryable label (scriptedCall script) (.fresh []) =
      (.raised .tooLarge, deskAfter 1025 1024 journal) := by
  obtain ⟨journal, run⟩ := retry_unsettled label beyond.le le_rfl fun i before => failing i (by omega)
  obtain ⟨f, raised, again⟩ := exists_of_not_settles (failing 1024 (by omega))
  have ended := scriptedCall_deskAfter script 1024 journal
  have amount := RetryPolicy.standard_delay_tooLarge le_rfl (.fit retries)
  have left : retries - 1024 = retries - 1025 + 1 := by omega
  rw [raised] at ended
  exact ⟨journal, by rw [run, left, retryFrom_overflows ended again amount]⟩

theorem length_deskAfter (calls waits : Nat) (journal : List Entry) :
    (deskAfter calls waits journal).world.length = calls := by
  rw [deskAfter, List.length_map, List.length_range]

theorem waits_deskAfter (calls waits : Nat) (journal : List Entry) :
    (deskAfter calls waits journal).world.map seconds = (List.range calls).map doublings ∧
      seconds (deskAfter calls waits journal).waits.reverse = doublings waits := by
  simp only [deskAfter, List.map_map, List.reverse_reverse]
  exact ⟨List.map_congr_left fun i _ => seconds_pauses i, seconds_pauses waits⟩

theorem persistent_last {journal : List Entry} (within : k ≤ retries)
    (failing : ∀ i < k, (script i).settles retryable = false)
    (last : (script k).settles retryable = true ∨ k = retries) :
    Persistent script retryable retries ((script k).leaving, deskAfter (k + 1) k journal) := by
  have calls := length_deskAfter (k + 1) k journal
  have waits := waits_deskAfter (k + 1) k journal
  constructor
  · rintro j ⟨⟨positive, settled⟩, least⟩
    have late : k ≤ j - 1 := by
      by_contra early
      rw [failing (j - 1) (by omega)] at settled
      cases settled
    rw [calls]
    rcases last with here | rfl
    · have first : j ≤ k + 1 := least ⟨by omega, here⟩
      omega
    · omega
  · intro unsettled
    rw [calls]
    rcases last with here | rfl
    · rw [unsettled k] at here
      cases here
    · rfl
  · rw [calls]
    rfl
  · rw [calls]
    exact waits.1
  · rw [calls]
    exact waits.2

/-- A run that stops early cannot have been persistent. -/
theorem not_persistent_of_few {run : Attempt α × Desk (List (List Binary64))} (few : run.2.world.length ≤ retries)
    (failing : ∀ i < run.2.world.length, (script i).settles retryable = false) :
    ¬Persistent script retryable retries run := by
  intro persistent
  by_cases ever : ∃ i, (script i).settles retryable = true
  · have first : IsLeast {j | 1 ≤ j ∧ (script (j - 1)).settles retryable = true} (Nat.find ever + 1) := by
      refine ⟨⟨by omega, Nat.find_spec ever⟩, ?_⟩
      rintro j ⟨positive, settled⟩
      have early := Nat.find_min' ever settled
      omega
    have calls := persistent.settled _ first
    have settled := Nat.find_spec ever
    rw [failing (Nat.find ever) (by omega)] at settled
    cases settled
  · have never : ∀ i, (script i).settles retryable = false := fun i =>
      Bool.eq_false_iff.mpr fun settled => ever ⟨i, settled⟩
    have calls := persistent.unsettled never
    omega

/-- Calling again does what it has to do unless there are more than 1024 retries and the first 1025 calls all fail. Then
the wait that would come next cannot be computed, and the fault of that is the outcome. -/
theorem retry_persistent_iff (script : Nat → Attempt α) (retryable : Fault → Bool) (label : Text) (retries : Nat) :
    let run := retry (.standard (.fit retries)) retryable label (scriptedCall script) (.fresh [])
    let overlong := 1024 < retries ∧ ∀ i < 1025, (script i).settles retryable = false
    (Persistent script retryable retries run ↔ ¬overlong) ∧
      (overlong → run.1 = .raised .tooLarge ∧ run.2.world.map seconds = (List.range 1025).map doublings ∧
        seconds run.2.waits.reverse = doublings 1024) := by
  intro run overlong
  have overflow : overlong → ∃ journal, run = (.raised .tooLarge, deskAfter 1025 1024 journal) :=
    fun long => retry_overflows long.1 long.2
  refine ⟨⟨fun persistent long => ?_, fun short => ?_⟩, fun long => ?_⟩
  · obtain ⟨journal, ended⟩ := overflow long
    rw [ended] at persistent
    have calls := length_deskAfter 1025 1024 journal
    refine not_persistent_of_few ?_ ?_ persistent
    · exact calls.trans_le long.1
    · exact fun i before => long.2 i (before.trans_eq calls)
  · have ends : ∃ k, (script k).settles retryable = true ∨ k = retries := ⟨retries, Or.inr rfl⟩
    have last := Nat.find_spec ends
    have within : Nat.find ends ≤ retries := Nat.find_min' ends (Or.inr rfl)
    have failing : ∀ i < Nat.find ends, (script i).settles retryable = false := fun i before =>
      Bool.eq_false_iff.mpr fun settled => Nat.find_min ends before (Or.inl settled)
    have inRange : Nat.find ends ≤ 1024 := by
      by_contra beyond
      exact short ⟨by omega, fun i before => failing i (by omega)⟩
    obtain ⟨journal, ended⟩ : ∃ journal, run = _ := retry_last within inRange failing last
    rw [ended]
    exact persistent_last within failing last
  · obtain ⟨journal, ended⟩ := overflow long
    rw [ended]
    exact ⟨rfl, waits_deskAfter 1025 1024 journal⟩

/-- A call that always fails in the same way, with 1025 retries, ends with a fault that it never raised, after one call
too few. -/
theorem steadyFailure_overflows :
    let script : Nat → Attempt Unit := fun _ => .raised ⟨"RuntimeError", "down"⟩
    let retryable (f : Fault) : Bool := f.isA "Exception"
    let run := retry (.standard (.fit 1025)) retryable "scripted" (scriptedCall script) (.fresh [])
    run.1 = .raised .tooLarge ∧ run.2.world.length = 1025 ∧ ¬Persistent script retryable 1025 run := by
  intro script retryable run
  have failing : ∀ i < 1025, (script i).settles retryable = false := fun _ _ => by decide
  obtain ⟨journal, ended⟩ : ∃ journal, run = (.raised .tooLarge, deskAfter 1025 1024 journal) :=
    retry_overflows (by decide) failing
  have calls := length_deskAfter 1025 1024 journal
  rw [ended]
  refine ⟨rfl, calls, not_persistent_of_few calls.le ?_⟩
  exact fun i before => failing i (before.trans_eq calls)

end Script

end Mender
