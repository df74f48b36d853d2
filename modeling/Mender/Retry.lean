import Mender.Journal
import Mender.Loose

namespace Mender

/-- How often a call is made again, and how long to wait before that. -/
structure RetryPolicy where
  retries : Loose Int
  baseDelay : Loose Amount
  maxDelay : Loose Amount

namespace RetryPolicy

/-- Further calls after one second, two, four and so on, with thirty seconds at most. -/
def standard (retries : Loose Int) : RetryPolicy :=
  ⟨retries, .fit (.real (Binary64.ofFraction false 1 1)), .fit (.real (Binary64.ofFraction false 30 1))⟩

/-- The base delay doubled a number of times. A binary64 base is doubled by a factor that must itself
be binary64. -/
def doubled (p : RetryPolicy) (number : Nat) : Except Fault Amount :=
  match p.baseDelay with
  | .fit (.whole n) => .ok (.whole (n * twoTo number))
  | .fit (.real x) =>
    if 1024 ≤ number then .error .tooLarge
    else .ok (.real (x.mul (Binary64.ofFraction false (twoTo number) 1)))
  | .odd v =>
    let cap : Text :=
      match p.maxDelay with
      | .fit a => a.kindName
      | .odd v => v.kindName
    match v with
    | .text _ | .array _ => .error (.notCompared "<" cap v.kindName)
    | _ => .error (.notCombined "*" v.kindName "int")

/-- The delay before a further call, the first being number zero: the base doubled that often, and
not more than the cap. -/
def delay (p : RetryPolicy) (number : Nat) : Except Fault Amount := do
  let amount ← p.doubled number
  match p.maxDelay with
  | .fit cap => pure (amount.least cap)
  | .odd v => .error (.notCompared "<" v.kindName amount.kindName)

def delays (p : RetryPolicy) : Except Fault (List Amount) :=
  match p.retries with
  | .fit n => (List.range n.toNat).mapM p.delay
  | .odd v => .error (.notCounted v)

end RetryPolicy

/-- How a call ends: with a value, with a fault, or not at all because the work around it is cut
off. -/
inductive Attempt (α : Type) where
  | value (a : α)
  | raised (f : Fault)
  | cut

/-- Makes a call, and makes it again after a fault that allows it while calls are left. `total` counts
the calls that may be made, and `made` those made before. -/
def retryFrom {ω α : Type} (policy : RetryPolicy) (retryable : Fault → Bool) (label : Text)
    (call : StateM (Desk ω) (Attempt α)) (total : Int) :
    (left : Nat) → (made : Nat) → StateM (Desk ω) (Attempt α)
  | left, made => do
    match ← call with
    | .value a => pure (.value a)
    | .cut => pure .cut
    | .raised raised =>
      let fault := raised.leavingCall
      if !retryable fault then pure (.raised fault)
      else
        match left with
        | 0 =>
          Desk.write .error .retry
            (label ++ ": giving up after " ++ Text.ofNat (made + 1) ++ " attempt(s) ("
              ++ fault.describe ++ ")")
          pure (.raised fault)
        | left + 1 =>
          match policy.delay made with
          | .error overflow => pure (.raised overflow)
          | .ok amount =>
            match amount.toReal? with
            | none => pure (.raised .tooLarge)
            | some delay =>
              Desk.write .warning .retry
                (label ++ ": attempt " ++ Text.ofNat (made + 1) ++ "/" ++ Text.ofInt total
                  ++ " failed (" ++ fault.describe ++ "), retrying in " ++ delay.fixed 1 ++ "s")
              Desk.wait delay
              retryFrom policy retryable label call total left (made + 1)

/-- Makes a call once where the number of further calls cannot be counted: `why` takes the place of a
fault after which the call would be made again. -/
def callOnce {ω α : Type} (retryable : Fault → Bool) (why : Fault)
    (call : StateM (Desk ω) (Attempt α)) : StateM (Desk ω) (Attempt α) := do
  match ← call with
  | .value a => pure (.value a)
  | .cut => pure .cut
  | .raised raised =>
    let fault := raised.leavingCall
    pure (.raised (if retryable fault then why else fault))

def retry {ω α : Type} (policy : RetryPolicy) (retryable : Fault → Bool) (label : Text)
    (call : StateM (Desk ω) (Attempt α)) : StateM (Desk ω) (Attempt α) :=
  match policy.retries with
  | .fit n => retryFrom policy retryable label call (n + 1) n.toNat 0
  | .odd v => callOnce retryable (.notCounted v) call

/-- A fault that may pass: a timeout, or trouble with a connection or the system. -/
def Fault.isTransient (f : Fault) : Bool :=
  f.isA "TimeoutError" || f.isA "ConnectionError" || f.isA "OSError"

end Mender
