import Mender.Fault

namespace Mender

structure Rehearsal where
  /-- How often each of the scripted players was asked, by the number of the player. -/
  asked : List (Nat × Nat)
  /-- How often an oracle that is counted was called. -/
  judged : Nat
  /-- The call of an oracle on which the session is cancelled. -/
  cancelAt : Option Nat
  cancelled : Bool
  /-- How often fixes were ranked. -/
  rankings : Nat
  /-- The ranking that fails, and how. -/
  failing : Option (Nat × Fault)

namespace Rehearsal

def quiet : Rehearsal := ⟨[], 0, none, false, 0, none⟩

def timesAsked (r : Rehearsal) (player : Nat) : Nat :=
  ((r.asked.find? (·.1 = player)).map (·.2)).getD 0

def ask (r : Rehearsal) (player : Nat) : Nat × Rehearsal :=
  let before := r.timesAsked player
  (before, { r with asked := (player, before + 1) :: r.asked.filter (·.1 ≠ player) })

/-- The line of a script for somebody who was asked this often before; the last line repeats. -/
def lineOf {α : Type} (script : List α) (before : Nat) : Option α :=
  script[min before (script.length - 1)]?

/-- Counts a call of an oracle, and cancels the session if this is the call for it. -/
def countCall (r : Rehearsal) : Rehearsal :=
  let judged := r.judged + 1
  { r with judged := judged, cancelled := r.cancelled || r.cancelAt = some judged }

/-- Cancels the session if `now` says so. -/
def cancelIf (r : Rehearsal) (now : Bool) : Rehearsal := { r with cancelled := r.cancelled || now }

/-- Counts a ranking, and gives the fault if this is the ranking that fails. -/
def countRanking (r : Rehearsal) : Option Fault × Rehearsal :=
  let rankings := r.rankings + 1
  let fault :=
    match r.failing with
    | some (n, f) => if n = rankings then some f else none
    | none => none
  (fault, { r with rankings := rankings })

end Rehearsal

end Mender
