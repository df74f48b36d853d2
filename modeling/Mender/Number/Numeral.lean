import Mender.Loose
import Mender.Record.Scalar

namespace Mender.Numeral

/-- A code point with a digit of any script in its ASCII form. -/
def asciiDigit (c : CodePoint) : CodePoint :=
  match c.decimalValue?.bind fun n => CodePoint.ofNat? (48 + n) with
  | some d => d
  | none => c

/-- The text of a number in ASCII, without the blanks around it. The information separators are no
blanks here. -/
def tidyText (t : Text) : Text := Text.trimWhere CodePoint.isWhiteSpace (t.map asciiDigit)

def baseLetters : List (Nat × List Char) := [(2, ['b', 'B']), (8, ['o', 'O']), (16, ['x', 'X'])]

/-- The digits of a text in a base, without the announcement of the base that may come first. -/
def withoutBase (base : Nat) (t : Text) : Text :=
  let letters := ((baseLetters.find? (·.1 = base)).map (·.2)).getD []
  match t with
  | zero :: letter :: digits =>
    if zero = '0' && letters.any (CodePoint.ofChar · = letter) then digits else t
  | _ => t

/-- The value of digits in a base, one at least. -/
def digitsValue? (base : Nat) (digits : Text) : Option Nat :=
  if digits.isEmpty then none
  else digits.foldlM (fun n c => (c.digitValue?.filter (· < base)).map fun d => n * base + d) 0

/-- The fault of a text that stands for no integer. A long text is cut. -/
def unreadable (base : Nat) (t : Text) : Fault :=
  ⟨"ValueError",
    "invalid literal for int() with base " ++ Text.ofNat base ++ ": " ++ t.shown.take 200⟩

def longerAdvice : Text := "; use sys.set_int_max_str_digits() to increase the limit"

/-- The integer that a text stands for in a base. In base ten there may not be too many digits,
whatever comes after them. -/
def integer (base : Nat) (t : Text) : Except Fault Int :=
  let (negative, rest) := Record.splitSign (tidyText t)
  let digits := withoutBase base rest
  let count := (digits.takeWhile CodePoint.isDigit).length
  if base = 10 && Json.longestInteger < count then
    .error
      ⟨"ValueError",
        "Exceeds the limit (" ++ Text.ofNat Json.longestInteger
          ++ " digits) for integer string conversion: value has " ++ Text.ofNat count ++ " digits"
          ++ longerAdvice⟩
  else
    match digitsValue? base digits with
    | some n => .ok (if negative then -(n : Int) else n)
    | none => .error (unreadable base t)

/-- The digits of an integer, of which there may not be too many. -/
def integerText (n : Int) : Except Fault Text :=
  let digits := Text.ofNat n.natAbs
  if Json.longestInteger < digits.length then
    .error
      ⟨"ValueError",
        "Exceeds the limit (" ++ Text.ofNat Json.longestInteger
          ++ " digits) for integer string conversion" ++ longerAdvice⟩
  else .ok (Text.ofInt n)

end Mender.Numeral

namespace Mender.Binary64

/-- The text without its underscores, if each stands between two digits; `before` says whether the
code point before the text is a digit. -/
def withoutSeparators? (before : Bool) : Text → Option Text
  | [] => some []
  | c :: rest =>
    if c = '_' then
      if before && rest.head?.any CodePoint.isDigit then withoutSeparators? false rest else none
    else (withoutSeparators? c.isDigit rest).map (c :: ·)

def ofText? (t : Text) : Option Binary64 :=
  (withoutSeparators? false (Numeral.tidyText t)).bind Record.plainNumber?

def unreadable (t : Text) : Fault :=
  ⟨"ValueError", "could not convert string to float: " ++ t.shown⟩

def ofText (t : Text) : Except Fault Binary64 :=
  match ofText? t with
  | some x => .ok x
  | none => .error (unreadable t)

def ofLoose : Json → Except Fault Binary64
  | .real x => .ok x
  | .int n => ((ofInt? n).map .ok).getD (.error .tooLarge)
  | .bool b => .ok (ofFraction false (if b then 1 else 0) 1)
  | .text t => ofText t
  | v => .error ⟨"TypeError", "float() argument must be a string or a real number, not '" ++ v.kindName ++ "'"⟩

end Mender.Binary64
