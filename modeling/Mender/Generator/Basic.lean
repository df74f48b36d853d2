import Mender.Fix
import Mender.Journal
import Mender.Fault
import Mender.Limit
import Mender.Text.Template

namespace Mender

/-- One item of what a generator gives back. -/
inductive Offer where
  | fix (f : Fix)
  | junk

/-- How a call of a generator ends. -/
inductive Reply where
  | offers (items : List Offer)
  | raised (f : Fault)
  | stalled

/-- A generator, with the name that the journal calls it by. -/
structure Generator (ω : Type) where
  name : Text
  propose : Defect → Text → StateM (Desk ω) Reply

namespace Reply

def ofFixes (fixes : List Fix) : Reply := offers (fixes.map .fix)

/-- The reply that loose data stands for. Data that is empty, zero or false offers nothing. -/
def ofData : Json → Reply
  | .null => offers []
  | .bool b => if b then raised (.notIterable "bool") else offers []
  | .int n => if n = 0 then offers [] else raised (.notIterable "int")
  | .real x => if x.code = 0 then offers [] else raised (.notIterable "float")
  | .text t => offers (t.map fun _ => .junk)
  | .array items => offers (items.map fun _ => .junk)
  | .object fields => offers (fields.map fun _ => .junk)

end Reply

namespace Generator

variable {ω : Type}

def call (g : Generator ω) (limit : Limit) (d : Defect) (t : Text) :
    StateM (Desk ω) Reply := do
  match limit.fault? with
  | some f =>
    Desk.pass limit.turns
    pure (.raised f)
  | none =>
    Desk.pass limit.turns
    match ← Desk.within limit (g.propose d t) with
    | .raised f => pure (.raised f.leavingCall)
    | reply => pure reply

def fixesOf (items : List Offer) : List Fix :=
  items.filterMap fun item =>
    match item with
    | .fix f => some f
    | .junk => none

def noteFault (g : Generator ω) (d : Defect) (f : Fault) : StateM (Desk ω) Unit :=
  Desk.write .warning .session
    ("Generator " ++ g.name ++ " failed on '" ++ d.message ++ "': " ++ f.describe)

/-- The fixes that a generator proposes for a defect; none if it fails. -/
def fixes (g : Generator ω) (limit : Limit) (d : Defect) (t : Text) :
    StateM (Desk ω) (List Fix) := do
  match ← g.call limit d t with
  | .raised f =>
    g.noteFault d f
    pure []
  | .stalled =>
    g.noteFault d .timeout
    pure []
  | .offers items =>
    let found := fixesOf items
    if found.length ≠ items.length then
      Desk.write .warning .session
        ("Generator " ++ g.name ++ " returned " ++ Text.ofNat (items.length - found.length)
          ++ " invalid candidate(s) for '" ++ d.message ++ "', dropped")
    pure found

def fixesForDefect (gs : List (Generator ω)) (limit : Limit) (d : Defect) (t : Text) :
    StateM (Desk ω) (List Fix) :=
  match gs with
  | [] => pure []
  | g :: rest => do
    let first ← g.fixes limit d t
    let more ← fixesForDefect rest limit d t
    pure (first ++ more)

/-- The fixes of all generators for all defects, in the order of the defects and then of the
generators. -/
def fixesForAll (gs : List (Generator ω)) (limit : Limit) (t : Text) :
    List Defect → StateM (Desk ω) (List Fix)
  | [] => pure []
  | d :: rest => do
    let first ← fixesForDefect gs limit d t
    let more ← fixesForAll gs limit t rest
    pure (first ++ more)

end Generator

def TemplateError.fault (e : TemplateError) : Fault :=
  let family : Text :=
    match e with
    | .unknownField _ => "KeyError"
    | .noPosition _ | .noItem => "IndexError"
    | .notIndexed | .noParts | .noLayout => "TypeError"
    | .noAttribute _ _ => "AttributeError"
    | .format .tooWide => "MemoryError"
    | _ => "ValueError"
  ⟨family, e.message⟩

end Mender
