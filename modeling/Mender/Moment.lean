import Mender.Text.Search
import Mender.Text.Shown

namespace Mender

structure Moment where
  year : Nat
  month : Nat
  day : Nat
  hour : Nat
  minute : Nat
  second : Nat
  micro : Nat
  offset : Option Int
deriving DecidableEq

namespace Moment

def daysIn (year month : Nat) : Nat :=
  if month = 2 then
    if year % 4 = 0 && (year % 100 != 0 || year % 400 = 0) then 29 else 28
  else if month = 4 || month = 6 || month = 9 || month = 11 then 30
  else 31

def daysBefore (year : Nat) : Nat := (year - 1) * 365 + (year - 1) / 4 - (year - 1) / 100 + (year - 1) / 400

/-- A length of time in days, seconds below a day, and microseconds below a second, as far as these
are not zero. -/
def spanText (micros : Int) : Text :=
  let day : Int := 86400000000
  let parts : List (Text × Int) :=
    [("days=", micros.fdiv day), ("seconds=", (micros.fmod day).fdiv 1000000),
      ("microseconds=", micros.fmod 1000000)]
  let shown := (parts.filter (·.2 ≠ 0)).map fun (name, n) => name ++ Text.ofInt n
  "datetime.timedelta(" ++ (if shown.isEmpty then Text.ofNat 0 else Text.joined ", " shown) ++ ")"

/-- What is wrong with a date or a time of day. -/
inductive Fault where
  | unreadable (t : Text)
  | year (n : Nat)
  | month
  | day
  | hour
  | minute
  | second
  | offset (micros : Int)
deriving DecidableEq

def Fault.message : Fault → Text
  | unreadable t => "Invalid isoformat string: " ++ t.shown
  | year n => "year " ++ Text.ofNat n ++ " is out of range"
  | month => "month must be in 1..12"
  | day => "day is out of range for month"
  | hour => "hour must be in 0..23"
  | minute => "minute must be in 0..59"
  | second => "second must be in 0..59"
  | offset micros =>
    "offset must be a timedelta strictly between -timedelta(hours=24) and timedelta(hours=24), not "
      ++ spanText micros ++ "."

def checked (m : Moment) : Except Fault Moment :=
  if m.year = 0 || 9999 < m.year then .error (.year m.year)
  else if m.month = 0 || 12 < m.month then .error .month
  else if m.day = 0 || daysIn m.year m.month < m.day then .error .day
  else if 23 < m.hour then .error .hour
  else if 59 < m.minute then .error .minute
  else if 59 < m.second then .error .second
  else .ok m

/-- A distance from universal time given in microseconds, in seconds, if it is less than a day. -/
def checkedOffset (micros : Int) : Except Fault Int :=
  if micros.natAbs < 86400000000 then .ok (micros.fdiv 1000000) else .error (.offset micros)

/-- How many seconds lie between the start of the calendar and the moment, in universal time if the
distance from it is known. -/
def secondsSinceStart (m : Moment) : Int :=
  let days := daysBefore m.year + ((List.range (m.month - 1)).map fun n => daysIn m.year (n + 1)).foldl (· + ·) 0 + m.day
  ((days * 24 + m.hour) * 60 + m.minute) * 60 + m.second - m.offset.getD 0

/-- Two moments are the same time. A moment whose distance from universal time is known is never the
same as one where it is not. -/
def isSameTime (m n : Moment) : Bool :=
  m.offset.isSome = n.offset.isSome && m.secondsSinceStart = n.secondsSinceStart && m.micro = n.micro

def two (n : Nat) : Text := (Text.ofNat n).zeroPad 2

def dateAfter (year : Text) (m : Moment) : Text := year ++ "-" ++ two m.month ++ "-" ++ two m.day

def dateText (m : Moment) : Text := m.dateAfter ((Text.ofNat m.year).zeroPad 4)

def clockText (m : Moment) : Text := two m.hour ++ ":" ++ two m.minute ++ ":" ++ two m.second

def fractionText (m : Moment) : Text :=
  if m.micro = 0 then [] else "." ++ (Text.ofNat m.micro).zeroPad 6

/-- A distance from universal time in hours and whole minutes. -/
def offsetText (seconds : Int) : Text :=
  (if seconds < 0 then "-" else "+") ++ two (seconds.natAbs / 3600) ++ ":" ++ two (seconds.natAbs / 60 % 60)

/-- The moment as data: universal time is named by a letter. -/
def dataText (m : Moment) : Text :=
  let zone : Text :=
    match m.offset with
    | none => []
    | some seconds => if seconds = 0 then "Z" else offsetText seconds
  m.dateText ++ "T" ++ m.clockText ++ m.fractionText ++ zone

/-- The moment in plain words. -/
def plainText (m : Moment) : Text :=
  m.dateText ++ " " ++ m.clockText ++ m.fractionText
    ++ match m.offset with
      | none => []
      | some seconds => offsetText seconds

/-- The moment as journals show it, to the millisecond. The year stands there as a plain number. -/
def journalText (m : Moment) : Text :=
  m.dateAfter (Text.ofNat m.year) ++ " " ++ m.clockText ++ ","
    ++ (Text.ofNat (m.micro / 1000)).zeroPad 3

/-- The microseconds that the digits of a fraction stand for; digits after the sixth do not count. -/
def microOf (digits : Text) : Nat :=
  let six := digits.take 6
  (six ++ List.replicate (6 - six.length) (CodePoint.ofChar '0')).foldl
    (fun n c => n * 10 + (c.val - 48)) 0

end Moment

end Mender
