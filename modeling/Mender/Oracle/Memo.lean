import Mender.Oracle.Basic

namespace Mender

/-- The verdicts so far, newest first, and how often the oracle was called for them. -/
structure Memo where
  verdicts : List (Text × List Defect)
  calls : Nat

namespace Memo

def empty : Memo := ⟨[], 0⟩

def find? (m : Memo) (t : Text) : Option (List Defect) :=
  (m.verdicts.find? fun p => p.1 = t).map (·.2)

def put (m : Memo) (t : Text) (found : List Defect) : Memo :=
  { m with verdicts := (t, found) :: m.verdicts }

def called (m : Memo) : Memo := { m with calls := m.calls + 1 }

end Memo

/-- What a session works on: the memo of its oracle, and the desk. -/
structure Bench (ω : Type) where
  memo : Memo
  desk : Desk ω

namespace Bench

variable {ω : Type}

def fresh (world : ω) : Bench ω := ⟨Memo.empty, Desk.fresh world⟩

def atDesk {α : Type} (act : StateM (Desk ω) α) : StateM (Bench ω) α :=
  modifyGet fun b => ((act b.desk).1, { b with desk := (act b.desk).2 })

def write (level : Level) (speaker : Speaker) (message : Text) : StateM (Bench ω) Unit :=
  atDesk (Desk.write level speaker message)

/-- Lets the turns pass that it takes to look up a remembered verdict. -/
def revisit (limit : Limit) : StateM (Bench ω) Unit := atDesk (Desk.pass limit.unlessBlank.turns)

/-- The verdict on a text: the remembered one, or that of a run of the oracle, which is remembered
unless the run fails. A limit that cannot be kept fails even where a verdict is remembered. -/
def verdict (o : Oracle ω) (limit : Limit) (t : Text) :
    StateM (Bench ω) (Except OracleError (List Defect)) := do
  match limit.faultUnlessBlank? with
  | some f => atDesk (refuse limit f)
  | none =>
    match (← get).memo.find? t with
    | some found =>
      revisit limit
      pure (.ok found)
    | none =>
      modify fun b => { b with memo := b.memo.called }
      match ← atDesk (runOracle o limit t) with
      | .ok found =>
        modify fun b => { b with memo := b.memo.put t found }
        pure (.ok found)
      | .error e => pure (.error e)

def assess (o : Oracle ω) (limit : Limit) (before after : Text) :
    StateM (Bench ω) (Except OracleError Assessment) := do
  match ← verdict o limit before with
  | .error e => pure (.error e)
  | .ok old =>
    match ← verdict o limit after with
    | .error e => pure (.error e)
    | .ok new =>
      pure (.ok
        { improved := new.length < old.length
          delta := old.length - new.length
          before := old.length
          after := new.length
          remaining := new })

end Bench

end Mender
