import Mender.Text.Encoding
import Mender.Text.Search
import Mender.Json.Writer
import Mender.Limit

namespace Mender

inductive Level where
  | debug
  | info
  | warning
  | error
deriving DecidableEq

def Level.word : Level → Text
  | debug => "DEBUG"
  | info => "INFO"
  | warning => "WARNING"
  | error => "ERROR"

/-- The part of the program that a line comes from. -/
inductive Speaker where
  | session
  | retry
  | rules
  | knownNames
  | model
  | oracle
deriving DecidableEq

structure Entry where
  level : Level
  speaker : Speaker
  message : Text
deriving DecidableEq

namespace Entry

/-- A message with at most `limit` code points. A longer one is cut three before the limit, and
dots show the cut. -/
def clip (limit : Int) (message : Text) : Text :=
  if limit < message.length then takeTo message (limit - 3) ++ "..." else message

/-- The text of a line: the session if there is one, the name of the speaker, and the message. -/
def line (session : Option Text) (speaker : Text) (limit : Int) (message : Text) : Text :=
  session.getD [] ++ " - " ++ speaker ++ " - " ++ clip limit message

/-- A line as it is printed, with the time and the level, if it can be written out. -/
def printed (time level text : Text) : Except Fault Text :=
  let line := Json.object [("asctime", .text time), ("levelname", .text level), ("message", .text text)]
  line.writable.map fun line => line.compact ++ "\n"

/-- The name of a numeric level; the numbers in between have no name of their own. -/
def levelName (n : Int) : Text :=
  if n = 0 then "NOTSET" else if n = 10 then "DEBUG" else if n = 20 then "INFO"
  else if n = 30 then "WARNING" else if n = 40 then "ERROR" else if n = 50 then "CRITICAL"
  else "Level " ++ Text.ofInt n

/-- Lines below this level are not heard. -/
def heardFrom : Int := 20

end Entry

/-- What collaborators work on: the world outside, the journal with its newest line first, and the
waits between calls, newest first. -/
structure Desk (ω : Type) where
  world : ω
  journal : List Entry
  waits : List Binary64
  /-- For how long the work may still stall before it is cut off, if that is limited. -/
  patience : Option Rat
  /-- How many turns have passed in which other work could go on. -/
  turns : Nat

namespace Desk

variable {ω : Type}

def fresh (world : ω) : Desk ω := ⟨world, [], [], none, 0⟩

def write (level : Level) (speaker : Speaker) (message : Text) : StateM (Desk ω) Unit :=
  modify fun d => { d with journal := ⟨level, speaker, message⟩ :: d.journal }

def turn {α : Type} (f : ω → α × ω) : StateM (Desk ω) α :=
  modifyGet fun d => ((f d.world).1, { d with world := (f d.world).2 })

def pass (number : Nat) : StateM (Desk ω) Unit :=
  modify fun d => { d with turns := d.turns + number }

def wait (delay : Binary64) : StateM (Desk ω) Unit :=
  modify fun d => { d with waits := delay :: d.waits }

/-- Does some work that is cut off when it has stalled for this long. -/
def within {α : Type} (limit : Limit) (work : StateM (Desk ω) α) : StateM (Desk ω) α := do
  modify fun d => { d with patience := limit.seconds? }
  let result ← work
  modify fun d => { d with patience := none }
  pure result

/-- Lets a call stall until its own limit is over. False says that the work is cut off before. -/
def sitOut (limit : Limit) : StateM (Desk ω) Bool :=
  modifyGet fun d =>
    match limit.seconds?, d.patience with
    | none, _ => (false, d)
    | some _, none => (true, d)
    | some time, some left =>
      if time < left then (true, { d with patience := some (left - time) }) else (false, d)

end Desk

end Mender
