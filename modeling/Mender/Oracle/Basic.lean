import Mender.Fault
import Mender.Journal
import Mender.Limit
import Mender.Record.Reading

namespace Mender

/-- Why loose data is no list of defects. -/
inductive BadList where
  | notIterable (kind : Text)
  | badItem (r : Refusal)
  | broken (f : Fault)

/-- What is wrong with the list; `manual` explains the flaws of records. -/
def BadList.message (manual : Text) : BadList → Text
  | notIterable kind => (Fault.notIterable kind).text
  | badItem r => r.report manual
  | broken f => f.text

/-- Why a call of an oracle gave no defects. -/
inductive Trouble where
  | badList (b : BadList)
  | raised (f : Fault)
  | stalled

/-- How a call of an oracle ends. Data may break off with a fault while it is gone through, after the
items that it gave before. -/
inductive Answer where
  | defects (found : List Defect)
  | data (v : Json)
  | breaking (items : List Json) (f : Fault)
  | trouble (t : Trouble)

/-- An oracle. The world that it works in may change from call to call. -/
abbrev Oracle (ω : Type) := Text → ω → Answer × ω

namespace Answer

/-- The items as defects, up to the first that is none. -/
def readItems (items : List Json) : Except Trouble (List Defect) :=
  items.mapM fun v =>
    match (Defect.check v).toExcept "Defect" with
    | .ok d => .ok d
    | .error r => .error (.badList (.badItem r))

/-- The defects that an answer stands for. Nothing stands for no defects; a text or an object is
gone through like a list, and none of its parts is a defect. -/
def coerce : Answer → Except Trouble (List Defect)
  | defects found => .ok found
  | trouble (.raised f) => .error (.raised f.leavingCall)
  | trouble t => .error t
  | data .null => .ok []
  | data (.array items) => readItems items
  | data (.text t) => readItems (t.map fun c => .text [c])
  | data (.object fields) => readItems (fields.map fun p => .text p.1)
  | data (.bool _) => .error (.badList (.notIterable "bool"))
  | data (.int _) => .error (.badList (.notIterable "int"))
  | data (.real _) => .error (.badList (.notIterable "float"))
  -- the signal that an iteration is over breaks nothing off, it ends the list
  | breaking items f => do
    let found ← readItems items
    if f.isA "StopIteration" then .ok found else .error (.badList (.broken f))

end Answer

/-- Why a run of an oracle failed. An oracle may also say so itself, by the fault that stands for that. -/
inductive OracleError where
  | badList (b : BadList)
  | timedOut (limit : Limit)
  | failed (f : Fault)
  | said (f : Fault)

namespace OracleError

/-- What went wrong; `manual` explains the flaws of records. -/
def message (manual : Text) : OracleError → Text
  | badList b => "oracle returned an invalid defect list: " ++ b.message manual
  | timedOut limit => "oracle timed out after " ++ limit.text ++ "s"
  | failed f => "oracle failed: " ++ f.describe
  | said f => f.text

end OracleError

namespace Oracle

variable {ω : Type}

def judge (o : Oracle ω) (t : Text) (w : ω) : Except Trouble (List Defect) × ω :=
  let (answer, w) := o t w
  (answer.coerce, w)

/-- The defects of all oracles one after the other, up to the first trouble; the oracles after it
are not called. -/
def judgeAll : List (Oracle ω) → Text → ω → Except Trouble (List Defect) × ω
  | [], _, w => (.ok [], w)
  | o :: rest, t, w =>
    match judge o t w with
    | (.error trouble, w) => (.error trouble, w)
    | (.ok found, w) =>
      match judgeAll rest t w with
      | (.error trouble, w) => (.error trouble, w)
      | (.ok more, w) => (.ok (found ++ more), w)

def composite (os : List (Oracle ω)) : Oracle ω := fun t w =>
  match judgeAll os t w with
  | (.ok found, w) => (.defects found, w)
  | (.error trouble, w) => (.trouble trouble, w)

end Oracle

def Oracle.refusal (v : Json) : Fault := ⟨"TypeError", "Not a defect oracle: " ++ v.shown⟩

/-- How a run ends that met trouble. What an oracle says itself is passed on as it is, and a call that
stalled or took too long has timed out. -/
def Trouble.error (limit : Limit) : Trouble → OracleError
  | badList b => .badList b
  | stalled => .timedOut limit
  | raised f =>
    if f.isA "OracleError" then .said f
    else if f.isA "TimeoutError" then .timedOut limit
    else .failed f

def OracleError.note {ω : Type} (e : OracleError) : StateM (Desk ω) Unit :=
  match e with
  | .failed f => Desk.write .error .oracle ("Oracle raised " ++ f.describe)
  | _ => pure ()

/-- The end of a run that met trouble, with its note in the journal. -/
def Trouble.settle {ω α : Type} (limit : Limit) (trouble : Trouble) :
    StateM (Desk ω) (Except OracleError α) := do
  (trouble.error limit).note
  pure (.error (trouble.error limit))

/-- The end of a run under a limit that cannot be kept. -/
def refuse {ω α : Type} (limit : Limit) (f : Fault) : StateM (Desk ω) (Except OracleError α) := do
  Desk.pass limit.unlessBlank.turns
  (Trouble.raised f).settle limit

/-- Runs an oracle on a text under a limit. The turns after a call that stalls are not counted, for
nobody knows how many pass until the limit is over. -/
def runOracle {ω : Type} (o : Oracle ω) (limit : Limit) (t : Text) :
    StateM (Desk ω) (Except OracleError (List Defect)) := do
  match limit.faultUnlessBlank? with
  | some f => refuse limit f
  | none =>
    Desk.pass limit.unlessBlank.turnsBefore
    match ← Desk.turn (o.judge t) with
    | .ok found =>
      Desk.pass limit.unlessBlank.turnsAfter
      pure (.ok found)
    | .error .stalled => Trouble.stalled.settle limit
    | .error trouble =>
      Desk.pass limit.unlessBlank.turnsAfter
      trouble.settle limit

end Mender
