import Mender.Loose

namespace Mender

/-- A limit of time. -/
inductive Limit where
  | none
  | amount (a : Amount)
  | odd (v : Json)

namespace Limit

def ofJson : Json → Limit
  | .null => none
  | .int n => amount (.whole n)
  | .real x => amount (.real x)
  | v => odd v

def toJson : Limit → Json
  | none => .null
  | amount (.whole n) => .int n
  | amount (.real x) => .real x
  | odd v => v

def text (l : Limit) : Text := l.toJson.plain

/-- How many seconds there are, if the limit says so. Truth values count as zero and one. -/
def amount? : Limit → Option Amount
  | none => Option.none
  | amount a => some a
  | odd (.bool b) => some (.whole (if b then 1 else 0))
  | odd _ => Option.none

/-- The time there is as an exact number, if it is limited. -/
def seconds? (l : Limit) : Option Rat := l.amount?.bind Amount.toRat?

/-- The fault of a limit that cannot be kept, before the call is made. -/
def fault? (l : Limit) : Option Fault :=
  match l.amount?, l with
  | some a, _ =>
    if a.isZero || a.isNegative then some .timeout
    else if a.isHuge then some .tooLarge
    else Option.none
  | Option.none, odd v => some (.notCompared "<=" v.kindName "int")
  | Option.none, _ => Option.none

/-- The limit, or none where it is zero or empty. -/
def unlessBlank (l : Limit) : Limit := if l.toJson.isBlank then none else l

/-- The fault of a limit that counts as none where it is zero or empty. -/
def faultUnlessBlank? (l : Limit) : Option Fault := l.unlessBlank.fault?

/-- Calls under the limit are watched: somebody else may have a turn before the call is made, and
again before its end is noticed. -/
def isWatched (l : Limit) : Bool :=
  match l.amount? with
  | some a => a.isNegative || !a.isHuge
  | Option.none => false

/-- How many turns pass before a call under the limit is made. -/
def turnsBefore (l : Limit) : Nat := if l.isWatched then 1 else 0

/-- How many turns pass after a call under the limit was made, until its end is noticed. -/
def turnsAfter (l : Limit) : Nat := if l.isWatched then 2 else 0

/-- How many turns a call under the limit takes. -/
def turns (l : Limit) : Nat := l.turnsBefore + l.turnsAfter

end Limit

end Mender
