import Mender.Json.Value

namespace Mender

/-- The lower-case digits of a number in base sixteen, `width` at least. -/
def hexText (n width : Nat) : Text := (Text.ofString (String.ofList (Nat.toDigits 16 n))).zeroPad width

namespace Json

/-- A code point inside a string. Controls are escaped, by a letter where one exists. -/
def escaped (c : CodePoint) : Text :=
  if c.val = 0x22 then "\\\""
  else if c.val = 0x5C then "\\\\"
  else if c.val = 0x08 then "\\b"
  else if c.val = 0x09 then "\\t"
  else if c.val = 0x0A then "\\n"
  else if c.val = 0x0C then "\\f"
  else if c.val = 0x0D then "\\r"
  else if c.val < 0x20 then "\\u" ++ hexText c.val 4
  else [c]

def quoted (t : Text) : Text := "\"" ++ t.flatMap escaped ++ "\""

/-- Numbers are positional from 0.00001 to below ten to the power of 16. A power of ten has its sign
and no more digits than it needs. -/
def numberLayout : Binary64.Layout := ⟨-4, 16, "+", 1⟩

/-- A number; the format has no text for infinity or what is no number, so these become null. -/
def numberText (x : Binary64) : Text := if x.isFinite then x.render numberLayout else "null"

def scalarText : Json → Text
  | null => "null"
  | bool b => if b then "true" else "false"
  | int n => Text.ofInt n
  | real x => numberText x
  | text t => quoted t
  | array _ => "[]"
  | object _ => "\x7b\x7d"

/-- The line break and indentation before an item at this depth; nothing on one line. -/
def lineStart (indented : Bool) (depth : Nat) : Text :=
  if indented then "\n" ++ List.replicate (2 * depth) (CodePoint.ofChar ' ') else []

mutual

def writeAt (indented : Bool) (depth : Nat) : Json → Text
  | array (item :: items) =>
    "[" ++ lineStart indented (depth + 1) ++ writeAt indented (depth + 1) item
      ++ writeItems indented (depth + 1) items ++ lineStart indented depth ++ "]"
  | object ((name, value) :: fields) =>
    "\x7b" ++ lineStart indented (depth + 1) ++ quoted name ++ (if indented then ": " else ":")
      ++ writeAt indented (depth + 1) value ++ writeFields indented (depth + 1) fields
      ++ lineStart indented depth ++ "\x7d"
  | scalar => scalarText scalar

def writeItems (indented : Bool) (depth : Nat) : List Json → Text
  | [] => []
  | item :: items =>
    "," ++ lineStart indented depth ++ writeAt indented depth item ++ writeItems indented depth items

def writeFields (indented : Bool) (depth : Nat) : List (Text × Json) → Text
  | [] => []
  | (name, value) :: fields =>
    "," ++ lineStart indented depth ++ quoted name ++ (if indented then ": " else ":")
      ++ writeAt indented depth value ++ writeFields indented depth fields

end

/-- The text of a value on one line. -/
def compact (v : Json) : Text := writeAt false 0 v

/-- The text of a value over several lines. -/
def pretty (v : Json) : Text := writeAt true 0 v

end Json

end Mender
