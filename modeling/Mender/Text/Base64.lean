import Mender.Json.Writer
import Mender.Text.Quoted

namespace Mender.Base64

def digit? (c : CodePoint) : Option Nat :=
  if c.within 'A' 'Z' then some (c.val - 65)
  else if c.within 'a' 'z' then some (c.val - 71)
  else if c.within '0' '9' then some (c.val + 4)
  else if c = '+' then some 62
  else if c = '/' then some 63
  else none

/-- The octets of digits in base 64 from after some digits on: `held` of a group of four, whose value
is `left` as far as no octet came of it, and then `fillers` signs. Nothing if a group is not
complete at the end. -/
def octetsFrom? (held left fillers : Nat) : Text → Option (List UInt8)
  | [] => if held = 0 then some [] else none
  | c :: rest =>
    if c = '=' then
      if 2 ≤ held then
        if 4 ≤ held + fillers + 1 then some [] else octetsFrom? held left (fillers + 1) rest
      else octetsFrom? held left fillers rest
    else
      match digit? c with
      | none => octetsFrom? held left fillers rest
      | some d =>
        match held with
        | 0 => octetsFrom? 1 d 0 rest
        | 1 => (octetsFrom? 2 (d % 16) 0 rest).map (UInt8.ofNat (left * 4 + d / 16) :: ·)
        | 2 => (octetsFrom? 3 (d % 4) 0 rest).map (UInt8.ofNat (left * 16 + d / 4) :: ·)
        | _ => (octetsFrom? 0 0 0 rest).map (UInt8.ofNat (left * 64 + d) :: ·)

/-- The octets that a text writes. -/
def octets? (t : Text) : Option (List UInt8) := octetsFrom? 0 0 0 t

def shownOctet (quote : CodePoint) (o : UInt8) : Text :=
  match CodePoint.ofNat? o.toNat with
  | none => []
  | some c =>
    if c = quote || c.val = 0x5C then "\\" ++ [c]
    else if c.val = 0x09 then "\\t"
    else if c.val = 0x0A then "\\n"
    else if c.val = 0x0D then "\\r"
    else if 0x20 ≤ c.val && c.val < 0x7F then [c]
    else "\\x" ++ hexText c.val 2

def shown (octets : List UInt8) : Text :=
  let single : UInt8 := 0x27
  let quote :=
    if octets.contains single && !octets.contains 0x22 then CodePoint.quotationMark
    else CodePoint.apostrophe
  "b" ++ [quote] ++ octets.flatMap (shownOctet quote) ++ [quote]

end Mender.Base64
