import Mender.Moment
import Mender.Record.Scalar
import Mender.Yaml.Tag

namespace Mender.Yaml

def truthWords : List Text :=
  ["yes", "Yes", "YES", "no", "No", "NO", "true", "True", "TRUE", "false", "False", "FALSE", "on", "On",
    "ON", "off", "Off", "OFF"]

def nullWords : List Text := ["", "~", "null", "Null", "NULL"]

def isGrouped (c : CodePoint) : Bool := c.isDigit || c == '_'

/-- What comes after one sign, if there is one. -/
def afterSign (t : Text) : Text := (Record.splitSign t).2

/-- The rest after groups of up to two digits below sixty, each after a colon; one group at least. -/
def afterSixties? : (fuel : Nat) → Text → Option Text
  | 0, _ => none
  | fuel + 1, t =>
    match t with
    | colon :: d :: rest =>
      if colon = ':' && d.isDigit then
        let rest :=
          match rest with
          | e :: more => if d.within '0' '5' && e.isDigit then more else rest
          | [] => []
        some ((afterSixties? fuel rest).getD rest)
      else none
    | _ => none

/-- Nothing, or a power of ten with a sign. -/
def isPower (t : Text) : Bool :=
  match t with
  | [] => true
  | e :: sign :: digits =>
    (e == 'e' || e == 'E') && (sign == '+' || sign == '-') && !digits.isEmpty
      && digits.all CodePoint.isDigit
  | _ => false

/-- Grouped digits and then a power. -/
def isPlaces (t : Text) : Bool := isPower (t.dropWhile isGrouped)

def isNumber (t : Text) : Bool :=
  let unsigned := afterSign t
  let (whole, rest) := unsigned.span isGrouped
  let startsWithDigit := whole.head?.any CodePoint.isDigit
  let point (s : Text) : Option Text :=
    match s with
    | c :: more => if c = '.' then some more else none
    | [] => none
  let decimal := startsWithDigit && (point rest).any isPlaces
  let fraction := (point t).any fun places => places.head?.any CodePoint.isDigit && isPlaces places
  let sexagesimal := startsWithDigit
    && ((afterSixties? rest.length rest).bind point).any fun places => places.all isGrouped
  let infinite := ([".inf", ".Inf", ".INF"] : List Text).contains unsigned
  let undefined := ([".nan", ".NaN", ".NAN"] : List Text).contains t
  decimal || fraction || sexagesimal || infinite || undefined

/-- The text has a leading part and then only what satisfies `p`, one code point at least. -/
def isLedBy (lead : Text) (p : CodePoint → Bool) (t : Text) : Bool :=
  t.startsWith lead && lead.length < t.length && (t.drop lead.length).all p

def isInteger (t : Text) : Bool :=
  let unsigned := afterSign t
  let binary := isLedBy "0b" (fun c => c.within '0' '1' || c == '_') unsigned
  let octal := isLedBy "0" (fun c => c.within '0' '7' || c == '_') unsigned
  let hex := isLedBy "0x" (fun c => (c.digitValue?.any (· < 16)) || c == '_') unsigned
  let (whole, rest) := unsigned.span isGrouped
  let ordinary := whole.head?.any fun c => c.within '1' '9'
  unsigned = ("0" : Text) || binary || octal || hex || (ordinary && rest.isEmpty)
    || (ordinary && (afterSixties? rest.length rest).any List.isEmpty)

/-- One digit or two at the start of a text, and the rest. -/
def shortNumber? (t : Text) : Option (Nat × Text) :=
  match t with
  | a :: b :: rest =>
    if a.isDigit && b.isDigit then some ((a.val - 48) * 10 + (b.val - 48), rest)
    else if a.isDigit then some (a.val - 48, b :: rest)
    else none
  | [a] => if a.isDigit then some (a.val - 48, []) else none
  | [] => none

def fixedNumber? (count : Nat) (t : Text) : Option (Nat × Text) :=
  (Record.digits? (t.take count)).bind fun n => if count ≤ t.length then some (n, t.drop count) else none

def after? (c : CodePoint) (t : Text) : Option Text :=
  match t with
  | d :: rest => if d = c then some rest else none
  | [] => none

/-- The distance from universal time, in seconds, that the end of a time stands for. -/
def zone? (t : Text) : Option (Option Int) :=
  let rest := t.dropWhile fun c => c.val == 0x20 || c.val == 0x09
  match rest with
  | [] => if t.isEmpty then some none else none
  | sign :: digits =>
    if sign = 'Z' then if digits.isEmpty then some (some 0) else none
    else if sign = '+' || sign = '-' then do
      let (hours, rest) ← shortNumber? digits
      let minutes ←
        match rest with
        | [] => some 0
        | _ => do
          let (minutes, rest) ← fixedNumber? 2 (← after? ':' rest)
          if rest.isEmpty then some minutes else none
      let total : Int := (hours * 60 + minutes) * 60
      pure (some (if sign = '-' then -total else total))
    else none

/-- The time that a text gives, and whether it is a mere date. It may be a date that does not
exist. -/
def time? (t : Text) : Option (Bool × Moment) := do
  let (year, rest) ← fixedNumber? 4 t
  let (month, rest) ← shortNumber? (← after? '-' rest)
  let (day, rest) ← shortNumber? (← after? '-' rest)
  match rest with
  | [] => some (true, ⟨year, month, day, 0, 0, 0, 0, none⟩)
  | c :: more =>
    let blank (d : CodePoint) : Bool := d.val == 0x20 || d.val == 0x09
    let clock := if c = 'T' || c = 't' then more else rest.dropWhile blank
    if !(c == 'T' || c == 't' || blank c) then none
    let (hour, rest) ← shortNumber? clock
    let (minute, rest) ← fixedNumber? 2 (← after? ':' rest)
    let (second, rest) ← fixedNumber? 2 (← after? ':' rest)
    let (fraction, rest) :=
      match rest with
      | d :: more => if d = '.' then more.span CodePoint.isDigit else ([], rest)
      | [] => ([], [])
    let offset ← zone? rest
    pure (false, ⟨year, month, day, hour, minute, second, Moment.microOf fraction, offset⟩)

/-- The text looks like a time. A mere date has to have all its digits. -/
def isTime (t : Text) : Bool := (time? t).any fun (isDate, _) => !isDate || t.length = 10

/-- The text without a line feed at its end. -/
def withoutLastFeed (t : Text) : Text :=
  if t.getLast? = some (CodePoint.ofChar '\n') then t.dropLast else t

/-- The tag that a text alone speaks for. -/
def lineTag (t : Text) : Tag :=
  if truthWords.contains t then .truth
  else if isNumber t then .number
  else if isInteger t then .integer
  else if t = ("<<" : Text) then .merge
  else if nullWords.contains t then .null
  else if isTime t then .time
  else if t = ("=" : Text) then .default
  else if ([("&" : Text), "*", "!"]).contains t then .unknown
  else .text

/-- The tag of a plain scalar. A line feed at its end does not count, unless it is all there is. -/
def impliedTag (t : Text) : Tag :=
  if t = ("\n" : Text) then .text else lineTag (withoutLastFeed t)

def colonParts : Text → List Text
  | [] => [[]]
  | c :: rest =>
    if c = ':' then [] :: colonParts rest
    else
      match colonParts rest with
      | [] => [[c]]
      | part :: more => (c :: part) :: more

end Mender.Yaml
