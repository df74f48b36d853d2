import Mender.Fault

namespace Mender

/-- Surrogates that stand next to each other in a text. -/
structure SurrogateRun where
  first : CodePoint
  start : Nat
  last : Nat

def SurrogateRun.message (r : SurrogateRun) : Text :=
  let what : Text :=
    if r.start = r.last then
      "character '\\u" ++ hexText r.first.val 4 ++ "' in position " ++ Text.ofNat r.start
    else "characters in position " ++ Text.ofNat r.start ++ "-" ++ Text.ofNat r.last
  "'utf-8' codec can't encode " ++ what ++ ": surrogates not allowed"

namespace Text

/-- The first surrogates of a text that are not spared, up to the end of their run; `place` counts
the code points before the text. -/
def surrogatesFrom? (spared : CodePoint → Bool) : (place : Nat) → Text → Option SurrogateRun
  | _, [] => none
  | place, c :: rest =>
    if c.isSurrogate && !spared c then
      some ⟨c, place, place + (rest.takeWhile CodePoint.isSurrogate).length⟩
    else surrogatesFrom? spared (place + 1) rest

/-- The fault of writing out a text whose surrogates are spared as told. -/
def encodingFaultExcept? (spared : CodePoint → Bool) (t : Text) : Option Fault :=
  (t.surrogatesFrom? spared 0).map fun r => ⟨"UnicodeEncodeError", r.message⟩

def encodingFault? (t : Text) : Option Fault := t.encodingFaultExcept? fun _ => false

end Text

/-! Reading -/

namespace CodePoint

def octetCount (first : UInt8) : Nat :=
  if first < 0xC0 then 1 else if first < 0xE0 then 2 else if first < 0xF0 then 3 else 4

/-- The code point that some octets are, if they are one that can be written out. -/
def ofOctets? (octets : List UInt8) : Option CodePoint := do
  let first ← octets.head?
  let lead : Nat :=
    if first < 0x80 then first.toNat
    else if first < 0xE0 then first.toNat % 0x20
    else if first < 0xF0 then first.toNat % 0x10
    else first.toNat % 0x08
  let c ← ofNat? ((octets.drop 1).foldl (fun n (o : UInt8) => n * 0x40 + o.toNat % 0x40) lead)
  if c.octets = octets && !c.isSurrogate then pure c else none

end CodePoint

namespace Text

/-- The text with at most `fuel` code points that some octets are. -/
def ofOctetsFrom? : (fuel : Nat) → List UInt8 → Option Text
  | _, [] => some []
  | 0, _ => none
  | fuel + 1, first :: rest => do
    let count := CodePoint.octetCount first
    let c ← CodePoint.ofOctets? ((first :: rest).take count)
    pure (c :: (← ofOctetsFrom? fuel ((first :: rest).drop count)))

/-- The text that some octets are, if they are UTF-8. -/
def ofOctets? (octets : List UInt8) : Option Text := ofOctetsFrom? octets.length octets

end Text

/-! Writing values -/

namespace Json

mutual

/-- The first text of a value that cannot be written out, with the fault. The name of a field comes
before its value. -/
def encodingFault? : Json → Option Fault
  | text t => t.encodingFault?
  | array items => itemsFault? items
  | object fields => fieldsFault? fields
  | _ => none

def itemsFault? : List Json → Option Fault
  | [] => none
  | item :: items => (encodingFault? item).or (itemsFault? items)

def fieldsFault? : List (Text × Json) → Option Fault
  | [] => none
  | (name, value) :: fields =>
    name.encodingFault?.or ((encodingFault? value).or (fieldsFault? fields))

end

def writable (v : Json) : Except Fault Json :=
  match v.encodingFault? with
  | none => .ok v
  | some f => .error ⟨"PydanticSerializationError", "Error serializing to JSON: " ++ f.describe⟩

end Json

end Mender
