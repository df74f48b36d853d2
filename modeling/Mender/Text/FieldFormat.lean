import Mender.Text.Search

namespace Mender

/-- Where a text stands in a wider field. -/
inductive Alignment where
  | left
  | right
  | middle
  | afterSign
deriving DecidableEq

def Alignment.ofMark? (c : CodePoint) : Option Alignment :=
  if c = '<' then some left
  else if c = '>' then some right
  else if c = '^' then some middle
  else if c = '=' then some afterSign
  else none

structure FieldFormat where
  fill : CodePoint
  alignment : Alignment
  sign : Option CodePoint
  unsignedZero : Bool
  alternate : Bool
  width : Option Nat
  grouping : Option CodePoint
  longest : Option Nat
  code : CodePoint

/-- Why a text cannot be put into a field. -/
inductive FormatError where
  | tooManyDigits
  | twoGroupings
  | noPrecision
  | malformed (format : Text)
  | grouped (mark code : CodePoint)
  | unknownCode (code : CodePoint)
  | signed (sign : CodePoint)
  | unsignedZero
  | alternate
  | afterSign
  | tooWide
deriving DecidableEq

namespace FormatError

/-- A code of a format in words: by number if it is not a plain character below `limit`. -/
def codeText (limit : Nat) (c : CodePoint) : Text :=
  if 32 < c.val && c.val < limit then [c] else "\\x" ++ Text.ofString (String.ofList (Nat.toDigits 16 c.val))

def message : FormatError → Text
  | tooManyDigits => "Too many decimal digits in format string"
  | twoGroupings => "Cannot specify both ',' and '_'."
  | noPrecision => "Format specifier missing precision"
  | malformed format => "Invalid format specifier '" ++ format ++ "' for object of type 'str'"
  | grouped mark code => "Cannot specify '" ++ [mark] ++ "' with '" ++ codeText 128 code ++ "'."
  | unknownCode code =>
    "Unknown format code '" ++ codeText 128 code ++ "' for object of type 'str'"
  | signed sign =>
    (if sign = ' ' then "Space" else "Sign" : Text) ++ " not allowed in string format specifier"
  | unsignedZero => "Negative zero coercion (z) not allowed in string format specifier"
  | alternate => "Alternate form (#) not allowed in string format specifier"
  | afterSign => "'=' alignment not allowed in string format specifier"
  | tooWide => []

end FormatError

namespace FieldFormat

def greatestCount : Nat := 0x7FFFFFFFFFFFFFFF

/-- A text of this length is assumed to be beyond all memory. -/
def unbearableWidth : Nat := 0x100000000

/-- The number that the decimal digits at the start of a text stand for, with their count, and the
rest; `sum` and `count` are those of the digits before. -/
def readDigitsFrom (sum count : Nat) : Text → Except FormatError ((Nat × Nat) × Text)
  | [] => .ok ((sum, count), [])
  | c :: rest =>
    match c.decimalValue? with
    | none => .ok ((sum, count), c :: rest)
    | some digit =>
      if greatestCount < sum * 10 + digit then .error .tooManyDigits
      else readDigitsFrom (sum * 10 + digit) (count + 1) rest

def readCount (t : Text) : Except FormatError (Option Nat × Text) := do
  let ((sum, count), rest) ← readDigitsFrom 0 0 t
  pure (if count = 0 then none else some sum, rest)

/-- The number that a whole text is in decimal digits. -/
def wholeCount? (t : Text) : Except FormatError (Option Nat) := do
  let (count, rest) ← readCount t
  pure (if rest.isEmpty then count else none)

/-- The fill and the alignment at the start of a format, and the rest. -/
def readAlignment (t : Text) : (Option CodePoint × Option Alignment) × Text :=
  match t with
  | [] => ((none, none), [])
  | [a] =>
    match Alignment.ofMark? a with
    | some alignment => ((none, some alignment), [])
    | none => ((none, none), t)
  | fill :: a :: rest =>
    match Alignment.ofMark? a, Alignment.ofMark? fill with
    | some alignment, _ => ((some fill, some alignment), rest)
    | none, some alignment => ((none, some alignment), a :: rest)
    | none, none => ((none, none), t)

/-- The code point at the start of a text, if it is one of some marks, and the rest. -/
def readMark (marks : List Char) (t : Text) : Option CodePoint × Text :=
  match t with
  | [] => (none, [])
  | c :: rest => if marks.any fun m => CodePoint.ofChar m = c then (some c, rest) else (none, t)

/-- The mark that groups digits at the start of a text, and the rest. -/
def readGrouping (t : Text) : Except FormatError (Option CodePoint × Text) :=
  let (comma, t) := readMark [','] t
  let (underscore, t) := readMark ['_'] t
  if comma.isSome && underscore.isSome then .error .twoGroupings
  else if underscore.isSome && t.head? = some (CodePoint.ofChar ',') then .error .twoGroupings
  else .ok (comma.or underscore, t)

/-- The greatest length after a point, and the rest. -/
def readLongest (t : Text) : Except FormatError (Option Nat × Text) := do
  let (point, rest) := readMark ['.'] t
  if point.isNone then pure (none, t)
  else
    match ← readCount rest with
    | (none, _) => .error .noPrecision
    | (longest, rest) => pure (longest, rest)

/-- Codes of numbers that may be grouped by any mark, and codes for which the underscore will do. -/
def groupedCodes : List Char × List Char :=
  (['d', 'e', 'f', 'g', 'E', 'G', '%', 'F', '\x00'], ['b', 'o', 'x', 'X'])

def groups (mark code : CodePoint) : Bool :=
  let holds (codes : List Char) : Bool := codes.any fun c => CodePoint.ofChar c = code
  holds groupedCodes.1 || (holds groupedCodes.2 && mark = '_')

/-- The format that a text stands for. A zero before the width makes zeros the fill. -/
def read (t : Text) : Except FormatError FieldFormat := do
  let ((fill, alignment), rest) := readAlignment t
  let (sign, rest) := readMark ['+', '-', ' '] rest
  let (coerced, rest) := readMark ['z'] rest
  let (alternate, rest) := readMark ['#'] rest
  let (zero, rest) := if fill.isNone then readMark ['0'] rest else (none, rest)
  let (width, rest) ← readCount rest
  let (grouping, rest) ← readGrouping rest
  let (longest, rest) ← readLongest rest
  let code ←
    match rest with
    | [] => .ok (CodePoint.ofChar 's')
    | [code] => .ok code
    | _ => .error (.malformed t)
  if let some mark := grouping then
    if !groups mark code then throw (.grouped mark code)
  pure
    { fill := (fill.or zero).getD (CodePoint.ofChar ' ')
      alignment := alignment.getD .left
      sign := sign
      unsignedZero := coerced.isSome
      alternate := alternate.isSome
      width := width
      grouping := grouping
      longest := longest
      code := code }

/-- What a format asks for that no text has. -/
def unfit? (f : FieldFormat) : Option FormatError :=
  if f.code ≠ 's' then some (.unknownCode f.code)
  else
    match f.sign with
    | some sign => some (.signed sign)
    | none =>
      if f.unsignedZero then some .unsignedZero
      else if f.alternate then some .alternate
      else if f.alignment = .afterSign then some .afterSign
      else if unbearableWidth ≤ f.width.getD 0 then some .tooWide
      else none

/-- The text cut to the greatest length and padded to the width. -/
def lay (f : FieldFormat) (t : Text) : Text :=
  let cut := t.take (f.longest.getD t.length)
  let missing := f.width.getD 0 - cut.length
  let before :=
    match f.alignment with
    | .right => missing
    | .middle => missing / 2
    | _ => 0
  List.replicate before f.fill ++ cut ++ List.replicate (missing - before) f.fill

def apply (format t : Text) : Except FormatError Text :=
  if format.isEmpty then .ok t
  else do
    let f ← read format
    match f.unfit? with
    | some e => .error e
    | none => pure (f.lay t)

end FieldFormat

end Mender
