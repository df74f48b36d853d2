import Mender.Json.Reader
import Mender.Record.Checked
import Mender.Text.Search

namespace Mender.Record

/-- The text without its underscores, if it has any and they stand alone and inside of it. -/
def ungrouped? (t : Text) : Option Text :=
  let mark : CodePoint := '_'
  if t.head? = some mark || t.getLast? = some mark || t.holds [mark, mark] then none
  else if t.elem mark then some (t.filter (· != mark))
  else none

/-- The value of a text that is all digits. -/
def digits? (t : Text) : Option Nat :=
  if !t.isEmpty && t.all CodePoint.isDigit then some (Json.digitsValue t) else none

/-- A sign at the start of a text and what comes after it. -/
def splitSign : Text → Bool × Text
  | [] => (false, [])
  | c :: rest => if c = '-' then (true, rest) else if c = '+' then (false, rest) else (false, c :: rest)

/-- The integer that a text is in its plain form: digits without a leading zero, after a minus sign
or not. Digits that go on for too long are a flaw of their own, whatever comes after them. -/
def plainInteger (t : Text) : Except Flaw Int :=
  let (negative, digits) : Bool × Text :=
    match t with
    | [] => (false, [])
    | c :: rest => if c = '-' then (true, rest) else (false, t)
  let run := digits.takeWhile CodePoint.isDigit
  if digits.head? = some (CodePoint.ofChar '0') then
    if digits.length = 1 then .ok 0 else .error .integerText
  else if Json.longestInteger < run.length + (if negative then 1 else 0) then .error .integerSize
  else
    match digits? digits with
    | some n => .ok (if negative then -(n : Int) else n)
    | none => .error .integerText

/-- What follows the zeros and underscores after a first zero. A point keeps the code point before
it, and so does the end of the text; `last` is that code point. -/
def afterZeros? (last : CodePoint) : Text → Option Text
  | [] => some [last]
  | c :: rest =>
    if c = '0' || c = '_' then afterZeros? c rest
    else if c.within '1' '9' || c = '-' then some (c :: rest)
    else if c = '.' then some (last :: c :: rest)
    else none

/-- The text without leading zeros, if it starts like an integer. -/
def withoutZeros? : Text → Option Text
  | [] => none
  | c :: rest =>
    if c = '0' then afterZeros? c rest
    else if c.within '1' '9' || c = '-' then some (c :: rest)
    else none

/-- The text without a point after which there are zeros only, one at least. -/
def withoutPlaces (t : Text) : Text :=
  let (whole, places) := t.span fun (c : CodePoint) => c != '.'
  match places with
  | _ :: zero :: zeros =>
    if (zero :: zeros).all fun (c : CodePoint) => c == '0' then whole else t
  | _ => t

/-- The plain form of an integer that is written more freely: with blanks around it, a plus sign,
leading zeros, places that are zero, and grouped digits. A text that is in plain form as far as this
goes has no other. -/
def tidied? (t : Text) : Option Text := do
  let trimmed := t.trimWhere CodePoint.isWhiteSpace
  let unsigned ←
    match trimmed with
    | [] => some []
    | c :: rest =>
      if c = '+' then if rest.head? = some (CodePoint.ofChar '-') then none else some rest
      else some trimmed
  let tidy := withoutPlaces (← withoutZeros? unsigned)
  match ungrouped? tidy with
  | some plain => some plain
  | none => if tidy.length = t.length then none else some tidy

def integerOfText (t : Text) : Except Flaw Int :=
  match plainInteger t with
  | .error .integerText =>
    match tidied? t with
    | some tidy => plainInteger tidy
    | none => .error .integerText
  | read => read

/-- The integer that a number is, if it has no fraction and fits 64 bits. -/
def integerOfReal (x : Binary64) : Except Flaw Int :=
  if !x.isFinite then .error .notFinite
  else
    let (num, den) := x.fraction
    if num % den ≠ 0 then .error .integerFraction
    else if num / den < codeLimit then
      .ok (if x.negative then -((num / den : Nat) : Int) else (num / den : Nat))
    else .error .integerSize

/-- A value as read, or the flaw of what was given. -/
def judged {α : Type} (given : Json) : Except Flaw α → Checked α
  | .ok a => .valid a
  | .error f => .flaw given f

def integer (v : Json) : Checked Int :=
  match v with
  | .int n => .valid n
  | .bool b => .valid (if b then 1 else 0)
  | .real x => judged v (integerOfReal x)
  | .text t => judged v (if t.isWritable then integerOfText t else .error .notUnicode)
  | _ => .flaw v .notInteger

def unboundedNames : List (Text × Nat) :=
  [("inf", infinityCode), ("infinity", infinityCode), ("nan", Binary64.nan.code)]

/-- ASCII capitals become small letters. -/
def smallLetter (c : CodePoint) : CodePoint :=
  if c.within 'A' 'Z' then (CodePoint.ofNat? (c.val + 32)).getD c else c

/-- The number that digits with a point and a power of ten stand for. -/
def decimalNumber? (negative : Bool) (t : Text) : Option Binary64 := do
  let (mantissa, power) := t.span fun (c : CodePoint) => c != 'e' && c != 'E'
  let (whole, places) := mantissa.span fun (c : CodePoint) => c != '.'
  let places := places.drop 1
  let digits ← digits? (whole ++ places)
  let exponent : Int ←
    match power with
    | [] => some 0
    | _ :: power =>
      let (down, digits) := splitSign power
      (digits? digits).map fun n => if down then -(n : Int) else n
  pure (Binary64.ofDecimal negative digits (exponent - places.length))

/-- The number that a text is: a sign, and then digits with a point and a power of ten, or the name
of a value that is not finite. -/
def plainNumber? (t : Text) : Option Binary64 :=
  let (negative, rest) := splitSign t
  match unboundedNames.find? fun (name, _) => name = rest.map smallLetter with
  | some (_, code) => if h : code < codeLimit then some ⟨negative, code, h⟩ else none
  | none => decimalNumber? negative rest

/-- The number that a text stands for. There may be blanks around it or underscores between its
digits, but not both. -/
def numberOfText? (t : Text) : Option Binary64 :=
  (plainNumber? (t.trimWhere CodePoint.isWhiteSpace)).or ((ungrouped? t).bind plainNumber?)

/-- What becomes of an integer beyond binary64 where a number is read. -/
inductive Excess where
  | refused
  | infinite
deriving DecidableEq

/-- The number that an integer is. -/
def numberOfInteger (excess : Excess) (n : Int) : Except Flaw Binary64 :=
  match Binary64.ofInt? n with
  | some x => .ok x
  | none =>
    if excess = .refused then .error .notNumber
    else .ok (Binary64.ofCode (decide (n < 0)) infinityCode)

/-- The number that a text stands for, or what is wrong with the text. -/
def numberOfText (t : Text) : Except Flaw Binary64 :=
  if t.isWritable then
    match numberOfText? t with
    | some x => .ok x
    | none => .error .numberText
  else .error .notUnicode

def number (excess : Excess) (v : Json) : Checked Binary64 :=
  match v with
  | .real x => .valid x
  | .int n => judged v (numberOfInteger excess n)
  | .bool b => .valid (Binary64.ofFraction false (if b then 1 else 0) 1)
  | .text t => judged v (numberOfText t)
  | _ => .flaw v .notNumber

def truthWords : List (Text × Bool) :=
  [("0", false), ("off", false), ("f", false), ("false", false), ("n", false), ("no", false),
    ("1", true), ("on", true), ("t", true), ("true", true), ("y", true), ("yes", true)]

/-- The truth value that a text stands for, in letters of either case. -/
def truthOfText? (t : Text) : Option Bool :=
  (truthWords.find? fun (word, _) => word = t.map smallLetter).map (·.2)

/-- The truth value that an integer is. One that takes more than 64 bits is not even compared. -/
def truthOfInteger (n : Int) : Except Flaw Bool :=
  if n = 0 then .ok false
  else if n = 1 then .ok true
  else if -codeLimit ≤ n ∧ n < codeLimit then .error .truthText
  else .error .notTruth

def truth (v : Json) : Checked Bool :=
  match v with
  | .bool b => .valid b
  | .int n => judged v (truthOfInteger n)
  | .real x =>
    match integerOfReal x with
    | .ok n => judged v (truthOfInteger n)
    | .error _ => .flaw v .notTruth
  | .text t =>
    if t.isWritable then
      match truthOfText? t with
      | some b => .valid b
      | none => .flaw v .truthText
    else .flaw v .notUnicode
  | _ => .flaw v .notTruth

end Mender.Record
