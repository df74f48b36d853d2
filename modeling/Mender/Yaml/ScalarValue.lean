import Mender.Number.Numeral
import Mender.Text.Lowercase
import Mender.Yaml.Cursor
import Mender.Yaml.Resolution
import Mender.Yaml.Value

namespace Mender.Yaml

def truths : List (String × Bool) :=
  [("yes", true), ("no", false), ("true", true), ("false", false), ("on", true), ("off", false)]

def truthOf (t : Text) : Except Fault Bool :=
  match truths.find? fun p => Text.ofString p.1 = t.lowered with
  | some (_, b) => .ok b
  | none => .error (.missingKey t.lowered)

def noFirst : Fault := ⟨"IndexError", "string index out of range"⟩

/-- A text without underscores, split into its sign and the rest. -/
def unsigned (t : Text) : Except Fault (Bool × Text) :=
  let digits := t.filter fun (c : CodePoint) => c != '_'
  if digits.isEmpty then .error noFirst else .ok (Record.splitSign digits)

/-- The integer of a text: in base two or sixteen after a mark, in base eight after a zero, in base
sixty between colons, and in base ten otherwise. -/
def integerOf (t : Text) : Except Fault Int := do
  let (negative, rest) ← unsigned t
  let magnitude ←
    if rest = ("0" : Text) then .ok 0
    else if rest.startsWith "0b" then Numeral.integer 2 (rest.drop 2)
    else if rest.startsWith "0x" then Numeral.integer 16 (rest.drop 2)
    else
      match rest with
      | [] => .error noFirst
      | first :: _ =>
        if first = '0' then Numeral.integer 8 rest
        else if rest.any (fun (c : CodePoint) => c == ':') then do
          let digits ← (colonParts rest).mapM (Numeral.integer 10)
          pure (digits.foldl (fun n d => n * 60 + d) 0)
        else Numeral.integer 10 rest
  pure (if negative then -magnitude else magnitude)

/-- The sum of parts in base sixty, the last one counting once. The weight of each part must be within
binary64. -/
def sexagesimal : (weight : Nat) → (sum : Binary64) → (parts : List Binary64) → Except Fault Binary64
  | _, sum, [] => .ok sum
  | weight, sum, part :: more =>
    match Binary64.ofInt? weight with
    | none => .error .tooLarge
    | some factor => sexagesimal (weight * 60) (sum.add (part.mul factor)) more

/-- The number of a text, and whether it is the one that is not a number. -/
def numberOf (t : Text) : Except Fault (Binary64 × Bool) := do
  let (negative, rest) ← unsigned t
  let rest := rest.lowered
  if rest = (".nan" : Text) then pure (Binary64.nan, true)
  else
    let magnitude ←
      if rest = (".inf" : Text) then .ok (Binary64.ofCode false infinityCode)
      else if rest.any (fun (c : CodePoint) => c == ':') then do
        let parts ← (colonParts rest).mapM Binary64.ofText
        sexagesimal 1 (Binary64.ofCode false 0) parts.reverse
      else Binary64.ofText rest
    pure (if negative then magnitude.neg else magnitude, false)

/-- The value of the text of a time, which may have a line feed at its end. -/
def timeOf (t : Text) : Except Fault Value :=
  let unreal (f : Moment.Fault) : Fault := ⟨"ValueError", f.message⟩
  match time? (withoutLastFeed t) with
  | none => .error ⟨"AttributeError", "'NoneType' object has no attribute 'groupdict'"⟩
  | some (isDate, m) => do
    match m.offset with
    | some seconds => discard ((Moment.checkedOffset (seconds * 1000000)).mapError unreal)
    | none => pure ()
    let m ← m.checked.mapError unreal
    pure (if isDate then .date m else .moment m)

/-- The origin that all numbers have which are written as not being one. -/
def sharedOrigin : Nat := 0

/-- The value of the text of the scalar of a node. Collections have no such value. -/
def valueOf (tag : Tag) (node : Nat) (t : Text) : Except Misread Value :=
  match tag with
  | .null => .ok .null
  | .truth => possible ((truthOf t).map .truth)
  | .integer => possible ((integerOf t).map .integer)
  | .number =>
    possible ((numberOf t).map fun (x, shared) => .number x (if shared then sharedOrigin else node + 1))
  | .octets =>
    if t.all fun c => c.val < 0x80 then (required (Base64.octets? t)).map .octets
    else .error .malformed
  | .time => possible (timeOf t)
  | .text => .ok (.text t)
  | _ => .error .malformed

end Mender.Yaml
