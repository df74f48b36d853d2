import Mender.Generator.Model
import Mender.Oracle.Basic
import Mender.Rehearsal.World
import Mender.Text.Search

namespace Mender

namespace Oracle

def counted (o : Oracle Rehearsal) : Oracle Rehearsal := fun t r => o t r.countCall

/-- An oracle with an answer for each of some texts, and one answer for all others. -/
def ofTable {ω : Type} (cases : List (Text × Answer)) (otherwise : Answer) : Oracle ω := fun t w =>
  (((cases.find? (·.1 = t)).map (·.2)).getD otherwise, w)

/-- One of two oracles, the first for texts that hold a given one. -/
def branching {ω : Type} (needle : Text) (holding lacking : Oracle ω) : Oracle ω := fun t w =>
  if t.holds needle then holding t w else lacking t w

/-- An oracle that gives the answers of a script in order, whatever the text. -/
def scripted (player : Nat) (script : List Answer) : Oracle Rehearsal := fun _ r =>
  let (before, r) := r.ask player
  ((Rehearsal.lineOf script before).getD (.data .null), r)

end Oracle

/-- A generator that gives the replies of a script in order. On the call `cancelOn` it has the
session cancelled. -/
def Generator.scripted (player : Nat) (name : Text) (script : List Reply) (cancelOn : Option Nat) :
    Generator Rehearsal where
  name := name
  propose _ _ :=
    Desk.turn fun r =>
      let (before, r) := r.ask player
      ((Rehearsal.lineOf script before).getD (.offers []), r.cancelIf (cancelOn = some (before + 1)))

def Client.scripted (player : Nat) (script : List ModelReply) : Client Rehearsal := fun _ r =>
  let (before, r) := r.ask player
  ((Rehearsal.lineOf script before).getD (.text none), r)

end Mender
