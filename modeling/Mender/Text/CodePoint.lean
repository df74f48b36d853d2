namespace Mender

/-- A number below 0x110000. Surrogates are included, so every `Char` is a code point, but not the
other way round. -/
structure CodePoint where
  val : Nat
  isCode : val < 0x110000
deriving DecidableEq

namespace CodePoint

def ofChar (c : Char) : CodePoint :=
  ⟨c.toNat, by
    have valid := c.valid
    have size : c.toNat = c.val.toNat := rfl
    rw [size]
    rcases valid with low | ⟨_, high⟩ <;> omega⟩

instance : Coe Char CodePoint := ⟨ofChar⟩

instance : Inhabited CodePoint := ⟨ofChar 'A'⟩

def ofNat? (n : Nat) : Option CodePoint :=
  if h : n < 0x110000 then some ⟨n, h⟩ else none

/-- A code point reserved for the halves of a UTF-16 pair; it stands for no character. -/
def isSurrogate (c : CodePoint) : Bool :=
  0xD800 ≤ c.val && c.val < 0xE000

/-- The code point lies between two characters, both ends included. -/
def within (c : CodePoint) (low high : Char) : Bool :=
  low.toNat ≤ c.val && c.val ≤ high.toNat

def isDigit (c : CodePoint) : Bool := c.within '0' '9'

/-- The value of an ASCII digit or letter as a digit in a base up to 36. -/
def digitValue? (c : CodePoint) : Option Nat :=
  if c.within '0' '9' then some (c.val - 48)
  else if c.within 'a' 'z' then some (c.val - 87)
  else if c.within 'A' 'Z' then some (c.val - 55)
  else none

/-- The digit zero of every script that has decimal digits, ascending. -/
def digitZeros : List Nat :=
  [0x30, 0x660, 0x6F0, 0x7C0, 0x966, 0x9E6, 0xA66, 0xAE6, 0xB66, 0xBE6, 0xC66, 0xCE6, 0xD66,
    0xDE6, 0xE50, 0xED0, 0xF20, 0x1040, 0x1090, 0x17E0, 0x1810, 0x1946, 0x19D0, 0x1A80, 0x1A90,
    0x1B50, 0x1BB0, 0x1C40, 0x1C50, 0xA620, 0xA8D0, 0xA900, 0xA9D0, 0xA9F0, 0xAA50, 0xABF0, 0xFF10,
    0x104A0, 0x10D30, 0x11066, 0x110F0, 0x11136, 0x111D0, 0x112F0, 0x11450, 0x114D0, 0x11650,
    0x116C0, 0x11730, 0x118E0, 0x11950, 0x11C50, 0x11D50, 0x11DA0, 0x16A60, 0x16AC0, 0x16B50,
    0x1D7CE, 0x1D7D8, 0x1D7E2, 0x1D7EC, 0x1D7F6, 0x1E140, 0x1E2F0, 0x1E950, 0x1FBF0]

/-- The value of a decimal digit of any script. -/
def decimalValue? (c : CodePoint) : Option Nat :=
  digitZeros.findSome? fun start =>
    if start ≤ c.val && c.val < start + 10 then some (c.val - start) else none

def isDecimalDigit (c : CodePoint) : Bool := c.decimalValue?.isSome

/-- The octets of a code point. A surrogate gets the three octets that its number would have. -/
def octets (c : CodePoint) : List UInt8 :=
  let tail (shift : Nat) : UInt8 := UInt8.ofNat (0x80 + (c.val >>> shift) % 0x40)
  if c.val < 0x80 then [UInt8.ofNat c.val]
  else if c.val < 0x800 then [UInt8.ofNat (0xC0 + c.val >>> 6), tail 0]
  else if c.val < 0x10000 then [UInt8.ofNat (0xE0 + c.val >>> 12), tail 6, tail 0]
  else [UInt8.ofNat (0xF0 + c.val >>> 18), tail 12, tail 6, tail 0]

end CodePoint

/-- A text: a list of code points. -/
abbrev Text := List CodePoint

namespace Text

instance instLawfulBEq : LawfulBEq Text := inferInstance

def ofString (s : String) : Text := s.toList.map CodePoint.ofChar

instance : Coe String Text := ⟨ofString⟩

def pairs (ps : List (String × String)) : List (Text × Text) :=
  ps.map fun (a, b) => (ofString a, ofString b)

/-- The octets of a text, surrogates included. -/
def octets (t : Text) : List UInt8 := t.flatMap CodePoint.octets

/-- The longest beginning of the text that takes at most so many octets. -/
def takeOctets : Text → (limit : Nat) → Text
  | [], _ => []
  | c :: rest, limit =>
    if c.octets.length ≤ limit then c :: takeOctets rest (limit - c.octets.length) else []

def ofNat (n : Nat) : Text := ofString (toString n)

def ofInt (n : Int) : Text := ofString (toString n)

/-- The text is free of surrogates, so that it can be written out as UTF-8. -/
def isWritable (t : Text) : Bool := t.all fun c => !c.isSurrogate

end Text

end Mender
