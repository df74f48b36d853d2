import Mender.Batch.Tape

namespace Mender

/-- How many workers a batch has, none standing for as many as there is work. Nothing and zero leave
it to the standard number, and with a broken number the workers never run out. -/
def batchWorkers (asked : Json) (standard : Nat) : Except Fault (Option Nat) :=
  if asked.isBlank then .ok (some standard)
  else
    match Loose.amount asked with
    | .odd v => .error (.notCompared "<" v.kindName "int")
    | .fit a =>
      if a.isNegative then .error ⟨"ValueError", "Semaphore initial value must be >= 0"⟩
      else
        match a.toRat? with
        | some r => .ok (if r.den = 1 then some r.num.toNat else none)
        | none => .ok none

/-- A session of a batch on its way. -/
structure Member where
  /-- Where its outcome stands among the others. -/
  place : Nat
  work : StateM (Bench Tape) Outcome
  /-- What the oracle has answered so far. -/
  heard : List Answer
  /-- What it comes to next. -/
  next : Milestone
  /-- The number of its next turn. -/
  turn : Nat
  /-- It has a worker. -/
  working : Bool

namespace Member

def start (place : Nat) (work : StateM (Bench Tape) Outcome) : Member :=
  ⟨place, work, [], .after [] work, 0, false⟩

def hear (m : Member) (answer : Answer) : Member :=
  let heard := m.heard ++ [answer]
  { m with heard := heard, next := .after heard m.work }

/-- The session once its stalled call is cut off: four turns pass until it goes on, and then it
ends. -/
def cutOff (m : Member) : Member :=
  match (m.hear (.trouble .stalled)).next with
  | .done outcome _ => { m with next := .done outcome 4, turn := 0 }
  | next => { m with next := next, turn := next.turn }

end Member

/-- The sessions of a batch by how far they are, and the world of their oracle. -/
structure Batch (ω : Type) where
  /-- Those that take turns, in the order of their turns. -/
  ready : List Member
  /-- Those that found no worker in their first turn. -/
  waiting : List Member
  /-- Those whose call of the oracle has stalled, in the order of the calls. -/
  stalled : List Member
  finished : List (Nat × Outcome)
  /-- How many workers are free; none stands for as many as anybody asks for. -/
  free : Option Nat
  world : ω

namespace Batch

variable {ω : Type}

def start (workers : Option Nat) (works : List (StateM (Bench Tape) Outcome)) (world : ω) : Batch ω :=
  ⟨works.zipIdx.map fun (work, place) => Member.start place work, [], [], [], workers, world⟩

/-- Gives a worker to a session in its first turn, or has it wait for one. -/
def receive (b : Batch ω) (m : Member) (rest : List Member) : Batch ω :=
  if b.free = some 0 then { b with ready := rest, waiting := b.waiting ++ [m] }
  else { b with ready := { m with working := true } :: rest, free := b.free.map (· - 1) }

/-- Asks the oracle for the session whose turn it is. The session keeps its turn, unless the call
stalls. -/
def ask (o : Oracle ω) (b : Batch ω) (m : Member) (rest : List Member) (t : Text) : Batch ω :=
  match o t b.world with
  | (.trouble .stalled, w) => { b with ready := rest, stalled := b.stalled ++ [m], world := w }
  | (answer, w) => { b with ready := m.hear answer :: rest, world := w }

/-- Ends a session. Its worker goes to the session that has waited longest. -/
def close (b : Batch ω) (m : Member) (rest : List Member) (outcome : Outcome) : Batch ω :=
  let b := { b with finished := (m.place, outcome) :: b.finished }
  match b.waiting with
  | [] => { b with ready := rest, free := b.free.map (· + 1) }
  | first :: waiting => { b with ready := rest ++ [{ first with working := true }], waiting := waiting }

/-- Goes on, for this many turns and questions at most. When nobody is ready any more, all the calls
that have stalled are cut off. -/
def advance (o : Oracle ω) : Nat → Batch ω → Batch ω
  | 0, b => b
  | left + 1, b =>
    match b.ready with
    | [] =>
      if b.stalled.isEmpty then b
      else advance o left { b with ready := b.stalled.map Member.cutOff, stalled := [] }
    | m :: rest =>
      if !m.working then advance o left (b.receive m rest)
      else if m.turn < m.next.turn then
        advance o left { b with ready := rest ++ [{ m with turn := m.turn + 1 }] }
      else
        match m.next with
        | .question t _ => advance o left (b.ask o m rest t)
        | .done outcome _ => advance o left (b.close m rest outcome)

def outcomes (b : Batch ω) : List Outcome :=
  (b.finished.mergeSort fun p q => p.1 ≤ q.1).map (·.2)

/-- More turns and questions than any batch comes to. -/
def longest : Nat := twoTo 40

end Batch

/-- The outcomes of some sessions that take turns and share an oracle; each plays a tape of its own
as its oracle. -/
def runBatch {ω : Type} (o : Oracle ω) (workers : Option Nat)
    (works : List (StateM (Bench Tape) Outcome)) (world : ω) : List Outcome × ω :=
  let b := (Batch.start workers works world).advance o Batch.longest
  (b.outcomes, b.world)

end Mender
