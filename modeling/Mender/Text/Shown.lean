import Mender.Text.Printable
import Mender.Text.Quoted
import Mender.Json.Writer

namespace Mender

/-- A code point in a shown text between quotes of the given kind. -/
def CodePoint.shown (quote c : CodePoint) : Text :=
  if c = quote || c.val = 0x5C then "\\" ++ [c]
  else if c.val = 0x0A then "\\n"
  else if c.val = 0x0D then "\\r"
  else if c.val = 0x09 then "\\t"
  else if c.isPrintable then [c]
  else if c.val ≤ 0xFF then "\\x" ++ hexText c.val 2
  else if c.val ≤ 0xFFFF then "\\u" ++ hexText c.val 4
  else "\\U" ++ hexText c.val 8

def Text.shown (t : Text) : Text :=
  let quote := if t.contains CodePoint.apostrophe && !t.contains CodePoint.quotationMark then
    CodePoint.quotationMark else CodePoint.apostrophe
  [quote] ++ t.flatMap (CodePoint.shown quote) ++ [quote]

def shownList (items : List Text) : Text := "[" ++ Text.joined ", " items ++ "]"

namespace Json

def kindName : Json → Text
  | null => "NoneType"
  | bool _ => "bool"
  | int _ => "int"
  | real _ => "float"
  | text _ => "str"
  | array _ => "list"
  | object _ => "dict"

mutual

def shown : Json → Text
  | null => "None"
  | bool b => if b then "True" else "False"
  | int n => Text.ofInt n
  | real x => x.text
  | text t => t.shown
  | array items => "[" ++ Text.joined ", " (shownItems items) ++ "]"
  | object fields => "\x7b" ++ Text.joined ", " (shownFields fields) ++ "\x7d"

def shownItems : List Json → List Text
  | [] => []
  | item :: items => shown item :: shownItems items

def shownFields : List (Text × Json) → List Text
  | [] => []
  | (name, value) :: fields => (name.shown ++ ": " ++ shown value) :: shownFields fields

end

end Json

end Mender
