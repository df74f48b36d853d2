import Mender.Moment

namespace Mender.Moment

abbrev octet (c : Char) : Nat := c.toNat

/-- A text as its octets, read by place. -/
structure Octets where
  items : Array Nat

namespace Octets

def size (t : Octets) : Nat := t.items.size

def get (t : Octets) (place : Nat) : Nat := t.items.getD place 0

def holds (t : Octets) (place : Nat) (c : Char) : Bool := t.get place == octet c

def isDigit (t : Octets) (place : Nat) : Bool := octet '0' ≤ t.get place && t.get place ≤ octet '9'

def number? (t : Octets) (place count : Nat) : Option Nat :=
  (List.range count).foldlM
    (fun n i => if t.isDigit (place + i) then some (n * 10 + (t.get (place + i) - octet '0')) else none) 0

/-- The first place from `place` on where there is no digit. -/
def pastDigits (t : Octets) (place : Nat) : Nat :=
  place + ((t.items.toList.drop place).takeWhile fun n => octet '0' ≤ n && n ≤ octet '9').length

end Octets

/-- The weekday of the first day of a year, zero for Monday. -/
def firstWeekday (year : Nat) : Nat := daysBefore year % 7

/-- A year has a week fifty-three if it starts on a Thursday, or on a Wednesday and has 366 days. -/
def hasLongWeeks (year : Nat) : Bool :=
  firstWeekday year == 3 || (firstWeekday year == 2 && daysIn year 2 == 29)

def daysInYear (year : Nat) : Nat := if daysIn year 2 = 29 then 366 else 365

/-- The month and day that a number of days after the first of a month falls on; `left` bounds the
months to come. -/
def monthAndDay (year : Nat) : (left : Nat) → (month days : Nat) → Nat × Nat
  | 0, month, days => (month, days + 1)
  | left + 1, month, days =>
    if days < daysIn year month then (month, days + 1)
    else monthAndDay year left (month + 1) (days - daysIn year month)

/-- The date of a day of a week, by year, month and day. The year zero has fifty-two weeks, but their
days are in no month. -/
def ofWeek? (year week day : Nat) : Option (Nat × Nat × Nat) :=
  let long := year ≠ 0 && hasLongWeeks year
  if week = 0 || (if long then 53 else 52) < week || day = 0 || 7 < day then none
  else if year = 0 then some (1, 0, day)
  else
    let start : Int := if firstWeekday year ≤ 3 then -(firstWeekday year : Int) else 7 - firstWeekday year
    let days : Int := start + (week - 1) * 7 + (day - 1)
    let (year, days) : Nat × Nat :=
      if days < 0 then (year - 1, (days + daysInYear (year - 1)).toNat)
      else if daysInYear year ≤ days.toNat then (year + 1, days.toNat - daysInYear year)
      else (year, days.toNat)
    some (year, monthAndDay year 11 1 days)

/-- The place at which the date ends. -/
def dateEnd? (t : Octets) : Option Nat :=
  if t.size = 7 then some 7
  else if t.holds 4 '-' then
    if t.holds 5 'W' && t.holds 8 '-' then
      if t.size = 9 then none
      else if t.isDigit 10 then some 8
      else some 10
    else some (if t.holds 5 'W' then 8 else 10)
  else if t.holds 4 'W' then
    let stop := t.pastDigits 7
    some (if stop < 9 then stop else if stop % 2 = 0 then 7 else 8)
  else some 8

def date? (t : Octets) (stop : Nat) : Option (Nat × Nat × Nat) := do
  let year ← t.number? 0 4
  let hyphens := t.holds 4 '-'
  let place := if hyphens then 5 else 4
  if t.holds place 'W' then
    let week ← t.number? (place + 1) 2
    let place := place + 3
    if stop ≤ place then ofWeek? year week 1
    else if hyphens then
      if t.holds place '-' then ofWeek? year week (← t.number? (place + 1) 1) else none
    else ofWeek? year week (← t.number? place 1)
  else
    let month ← t.number? place 2
    if hyphens && !t.holds (place + 2) '-' then none
    else
      let day ← t.number? (if hyphens then place + 3 else place + 2) 2
      pure (year, month, day)

/-- What follows the hours, minutes and seconds of a time: its end, with or without anything more, or
a fraction from a place on. -/
inductive ClockRest where
  | over (more : Bool)
  | fraction (place : Nat)

/-- The units of a time from a place on, up to `left` of them, and what follows; `colons` says
whether colons stand between them, once that is known. -/
def units? (t : Octets) (stop : Nat) :
    (left : Nat) → (colons : Option Bool) → (place : Nat) → Option (List Nat × ClockRest)
  | 0, _, place => some ([], .fraction place)
  | left + 1, colons, place => do
    let n ← t.number? place 2
    let colon := t.holds (place + 2) ':'
    let colons := colons.getD colon
    if stop ≤ place + 3 then pure ([n], .over (t.get (place + 2) != 0))
    else if colons && colon then
      let (more, rest) ← units? t stop left colons (place + 3)
      pure (n :: more, rest)
    else if t.holds (place + 2) '.' || t.holds (place + 2) ',' then pure ([n], .fraction (place + 3))
    else if colons then none
    else
      let (more, rest) ← units? t stop left colons (place + 2)
      pure (n :: more, rest)

/-- A time of day or a distance between times. -/
structure Clock where
  hour : Nat
  minute : Nat
  second : Nat
  micro : Nat

def Clock.micros (c : Clock) : Nat := (c.hour * 3600 + c.minute * 60 + c.second) * 1000000 + c.micro

def clock? (t : Octets) (start stop : Nat) : Option (Clock × Bool) := do
  let (units, rest) ← units? t stop 3 none start
  let clock (micro : Nat) : Clock := ⟨units.getD 0 0, units.getD 1 0, units.getD 2 0, micro⟩
  match rest with
  | .over more => pure (clock 0, more)
  | .fraction place =>
    let count := min 6 (stop - place)
    let digits ← t.number? place count
    pure (clock (digits * tenTo (6 - count)), t.get (t.pastDigits (place + count)) != 0)

/-- The first place from `start` on where a zone begins. -/
def zoneStart (t : Octets) (start : Nat) : Nat :=
  start + ((t.items.toList.drop start).takeWhile fun n =>
    n != octet '+' && n != octet '-' && n != octet 'Z').length

/-- The time from a place on, and the distance from universal time in microseconds. -/
def time? (t : Octets) (start : Nat) : Option (Clock × Option Int) := do
  let zone := zoneStart t start
  let (clock, more) ← clock? t start zone
  if t.size ≤ zone then if more then none else some (clock, none)
  else if t.holds zone 'Z' then if t.get (zone + 1) = 0 then some (clock, some 0) else none
  else
    let (distance, more) ← clock? t (zone + 1) t.size
    let micros : Int :=
      if distance.hour = 0 && distance.minute = 0 && distance.second = 0 then 0 else distance.micros
    if more then none else some (clock, some (if t.holds zone '-' then -micros else micros))

/-- The date and the time of a text. -/
def parts? (t : Octets) : Option ((Nat × Nat × Nat) × Option (Clock × Option Int)) := do
  let stop ← dateEnd? t
  let date ← date? t stop
  if t.size ≤ stop then pure (date, none)
  else
    let lead := t.get stop
    let width := if lead < 0x80 then 1 else if lead < 0xE0 then 2 else if lead < 0xF0 then 3 else 4
    pure (date, some (← time? t (stop + width)))

/-- The text with a letter in the place between date and time, if a surrogate stands there. -/
def withLetter (t : Text) : Text :=
  match [7, 8, 10].find? fun i => (t[i]?).any CodePoint.isSurrogate with
  | some i => t.set i 'T'
  | none => t

/-- The octets of a text of a possible length that can be written out. -/
def octets? (t : Text) : Option Octets :=
  if t.length < 7 || !(withLetter t).isWritable then none
  else some ⟨((withLetter t).octets.map UInt8.toNat).toArray⟩

def read (t : Text) : Except Fault Moment := do
  match (octets? t).bind parts? with
  | none => .error (.unreadable t)
  | some ((year, month, day), time) =>
    let clock := (time.map (·.1)).getD ⟨0, 0, 0, 0⟩
    let offset ←
      match time.bind (·.2) with
      | none => pure none
      | some micros => (checkedOffset micros).map some
    checked ⟨year, month, day, clock.hour, clock.minute, clock.second, clock.micro, offset⟩

end Mender.Moment
