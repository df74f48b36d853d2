import Mender.Json.Value
import Mender.Text.Quoted

namespace Mender.Json

/-- What a reader takes beyond the grammar, and what it refuses within it. -/
structure Dialect where
  /-- Half of a surrogate pair may be written as an escape that stands alone. -/
  keepsLoneSurrogates : Bool
  /-- How many arrays and objects that are not empty may lie in one another. -/
  depth : Option Nat
  /-- How many code points the whole part of a number may take, its minus sign included. -/
  integerSpan : Option Nat

/-- How many code points an integer may take where its length is limited. -/
abbrev longestInteger : Nat := 4300

/-- The dialect of texts from outside: no lone surrogates, and a limit to depth and length. -/
def Dialect.strict : Dialect := ⟨false, some 200, some longestInteger⟩

/-- The dialect that takes all that the grammar has, and lone surrogates. -/
def Dialect.free : Dialect := ⟨true, none, none⟩

def skipBlanks (t : Text) : Text :=
  t.dropWhile fun c => c.val == 0x20 || c.val == 0x09 || c.val == 0x0A || c.val == 0x0D

def hexQuad? (a b c d : CodePoint) : Option Nat := do
  let digit (x : CodePoint) : Option Nat := x.digitValue?.filter (· < 16)
  pure ((((← digit a) * 16 + (← digit b)) * 16 + (← digit c)) * 16 + (← digit d))

/-- The code point that a one-letter escape stands for. -/
def shortEscape? (c : CodePoint) : Option CodePoint :=
  if c.val = 0x22 || c.val = 0x5C || c.val = 0x2F then some c
  else if c = 'b' then CodePoint.ofNat? 0x08
  else if c = 'f' then CodePoint.ofNat? 0x0C
  else if c = 'n' then CodePoint.ofNat? 0x0A
  else if c = 'r' then CodePoint.ofNat? 0x0D
  else if c = 't' then CodePoint.ofNat? 0x09
  else none

/-- Joins escaped surrogate pairs. Each unit of the text comes with a mark that says whether it was
written as an escape; only escaped halves form pairs. -/
def joinPairs (keep : Bool) : List (Bool × CodePoint) → Option Text
  | [] => some []
  | (escaped, c) :: rest =>
    if escaped && c.isSurrogate then
      match rest with
      | (true, d) :: more =>
        if c.val < 0xDC00 && 0xDC00 ≤ d.val && d.val < 0xE000 then do
          let pair ← CodePoint.ofNat? (0x10000 + (c.val - 0xD800) * 0x400 + (d.val - 0xDC00))
          pure (pair :: (← joinPairs keep more))
        else if keep then (joinPairs keep ((true, d) :: more)).map (c :: ·)
        else none
      | more => if keep then (joinPairs keep more).map (c :: ·) else none
    else (joinPairs keep rest).map (c :: ·)

/-- The units of a string after its opening quote, and the rest after its closing quote. -/
def readUnits : Text → Option (List (Bool × CodePoint) × Text)
  | [] => none
  | c :: rest =>
    if c = CodePoint.quotationMark then some ([], rest)
    else if c.val = 0x5C then
      match rest with
      | [] => none
      | e :: rest =>
        if e = 'u' then
          match rest with
          | h₁ :: h₂ :: h₃ :: h₄ :: rest => do
            let unit ← CodePoint.ofNat? (← hexQuad? h₁ h₂ h₃ h₄)
            let (units, rest) ← readUnits rest
            pure ((true, unit) :: units, rest)
          | _ => none
        else do
          let unit ← shortEscape? e
          let (units, rest) ← readUnits rest
          pure ((false, unit) :: units, rest)
    else if c.val < 0x20 then none
    else do
      let (units, rest) ← readUnits rest
      pure ((false, c) :: units, rest)

def readString (keep : Bool) (t : Text) : Option (Text × Text) := do
  let (units, rest) ← readUnits t
  pure (← joinPairs keep units, rest)

def digitsValue (digits : Text) : Nat := digits.foldl (fun n c => n * 10 + (c.val - 48)) 0

/-- The digits at the start of a text, at least one, and the rest. -/
def readDigits (t : Text) : Option (Text × Text) :=
  match t.span CodePoint.isDigit with
  | ([], _) => none
  | digits => some digits

/-- The power of ten at the start of a text, zero without one. -/
def readPower (t : Text) : Option (Option Int × Text) :=
  match t with
  | [] => some (none, [])
  | e :: rest =>
    if e = 'e' || e = 'E' then
      let (sign, rest) : Int × Text :=
        match rest with
        | s :: more => if s = '-' then (-1, more) else if s = '+' then (1, more) else (1, rest)
        | [] => (1, [])
      (readDigits rest).map fun (digits, rest) => (some (sign * digitsValue digits), rest)
    else some (none, t)

/-- The places after the point at the start of a text, none without a point. -/
def readPlaces (t : Text) : Option (Option Text × Text) :=
  match t with
  | [] => some (none, [])
  | point :: rest =>
    if point = '.' then (readDigits rest).map fun (digits, rest) => (some digits, rest)
    else some (none, t)

/-- A number after its sign. Without point and power it is an integer. -/
def readNumber (limit : Option Nat) (negative : Bool) (t : Text) : Option (Json × Text) := do
  let (whole, rest) ← readDigits t
  if limit.any (· < whole.length + if negative then 1 else 0) then none
  if 1 < whole.length && whole.head? = some (CodePoint.ofChar '0') then none
  let (places, rest) ← readPlaces rest
  let (power, rest) ← readPower rest
  if places.isNone && power.isNone then
    let n : Int := digitsValue whole
    pure (int (if negative then -n else n), rest)
  else
    let places := places.getD []
    let digits := digitsValue (whole ++ places)
    pure (real (Binary64.ofDecimal negative digits (power.getD 0 - places.length)), rest)

def names : List (Text × Json) :=
  [("null", null), ("true", bool true), ("false", bool false), ("NaN", real Binary64.nan),
    ("Infinity", real (Binary64.ofCode false infinityCode)),
    ("-Infinity", real (Binary64.ofCode true infinityCode))]

def readScalar (limit : Option Nat) (t : Text) : Option (Json × Text) :=
  let named := names.findSome? fun (name, value) =>
    if t.startsWith name then some (value, t.drop name.length) else none
  match named with
  | some found => some found
  | none =>
    match t with
    | [] => none
    | c :: rest => if c = '-' then readNumber limit true rest else readNumber limit false t

mutual

/-- A value at the start of a text; `level` counts the arrays and objects around it, and `fuel`
bounds the depth and the number of items. -/
def readValue (dialect : Dialect) (level : Nat) : (fuel : Nat) → Text → Option (Json × Text)
  | 0, _ => none
  | fuel + 1, t =>
    match skipBlanks t with
    | [] => none
    | c :: rest =>
      if c = CodePoint.quotationMark then (readString dialect.keepsLoneSurrogates rest).map fun (s, rest) => (text s, rest)
      else if c = '[' then
        match skipBlanks rest with
        | [] => none
        | d :: more =>
          if d = ']' then some (array [], more)
          else if dialect.depth.any (· ≤ level) then none
          else (readItems dialect (level + 1) fuel (d :: more)).map fun (items, rest) => (array items, rest)
      else if c.val = 0x7B then
        match skipBlanks rest with
        | [] => none
        | d :: more =>
          if d.val = 0x7D then some (object [], more)
          else if dialect.depth.any (· ≤ level) then none
          else (readFields dialect (level + 1) fuel [] (d :: more)).map fun (fields, rest) => (object fields, rest)
      else readScalar dialect.integerSpan (c :: rest)

def readItems (dialect : Dialect) (level : Nat) : (fuel : Nat) → Text → Option (List Json × Text)
  | 0, _ => none
  | fuel + 1, t => do
    let (item, rest) ← readValue dialect level fuel t
    match skipBlanks rest with
    | [] => none
    | c :: rest =>
      if c = ']' then some ([item], rest)
      else if c = ',' then
        let (items, rest) ← readItems dialect level fuel rest
        pure (item :: items, rest)
      else none

/-- The fields of an object up to its closing brace, after those read before. -/
def readFields (dialect : Dialect) (level : Nat) :
    (fuel : Nat) → (before : List (Text × Json)) → Text → Option (List (Text × Json) × Text)
  | 0, _, _ => none
  | fuel + 1, before, t =>
    match skipBlanks t with
    | [] => none
    | quote :: rest =>
      if quote = CodePoint.quotationMark then do
        let (name, rest) ← readString dialect.keepsLoneSurrogates rest
        match skipBlanks rest with
        | [] => none
        | colon :: rest =>
          if colon = ':' then
            let (value, rest) ← readValue dialect level fuel rest
            let fields := putField before name value
            match skipBlanks rest with
            | [] => none
            | c :: rest =>
              if c.val = 0x7D then some (fields, rest)
              else if c = ',' then readFields dialect level fuel fields rest
              else none
          else none
      else none

end

/-- The value that a whole text stands for. -/
def read? (dialect : Dialect) (t : Text) : Option Json := do
  let (value, rest) ← readValue dialect 0 (2 * t.length + 2) t
  if (skipBlanks rest).isEmpty then some value else none

end Mender.Json
