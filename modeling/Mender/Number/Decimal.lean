import Mender.Number.Binary64
import Mender.Text.Search

namespace Mender

/-- Digits times a power of ten. The digits do not end in zero unless they are zero. -/
structure Decimal where
  digits : Nat
  power : Int
deriving DecidableEq

namespace Decimal

/-- The same value without zeros at the end of the digits; `fuel` bounds their number. -/
def strip : (fuel : Nat) → Decimal → Decimal
  | 0, d => d
  | fuel + 1, d =>
    if d.digits ≠ 0 ∧ d.digits % 10 = 0 then strip fuel ⟨d.digits / 10, d.power + 1⟩ else d

end Decimal

namespace Binary64

/-- The decimal lies in the interval of values that round to the positive finite number `x`: from
halfway to its lower neighbour to halfway to its upper one, ends included when the code is even. -/
def readsBack (x : Binary64) (d : Decimal) : Bool :=
  let narrow := x.code % octave == 0 && 2 * octave ≤ x.code
  let scale := x.exponent - 2
  let low := 4 * x.significand - if narrow then 1 else 2
  let high := 4 * x.significand + 2
  let scaled (n : Nat) : Nat := n * twoTo scale.toNat * tenTo (-d.power).toNat
  let value := d.digits * tenTo d.power.toNat * twoTo (-scale).toNat
  if x.code % 2 = 0 then scaled low ≤ value && value ≤ scaled high
  else scaled low < value && value < scaled high

/-- How many digits the whole part of the positive finite number `x` has; zero and negative counts
are for numbers below one tenth and less. -/
def wholeDigits (x : Binary64) : Int :=
  let reaches (k : Int) : Bool :=
    x.fraction.2 * tenTo k.toNat ≤ x.fraction.1 * tenTo (-k).toNat
  let guess : Int := (floorLog2 x.fraction.1 x.fraction.2 * 30103) / 100000
  if reaches (guess + 1) then guess + 2 else if reaches guess then guess + 1 else guess

/-- The decimal with `count` digits next to `x` that reads back to it, the nearer one of two. -/
def withDigits? (x : Binary64) (count : Nat) : Option Decimal :=
  let power := x.wholeDigits - count
  let num := x.fraction.1 * tenTo (-power).toNat
  let den := x.fraction.2 * tenTo power.toNat
  let below := num / den
  let low : Decimal := ⟨below, power⟩
  let high : Decimal := ⟨below + 1, power⟩
  match x.readsBack low, x.readsBack high with
  | true, true => some ⟨roundHalfEven num den, power⟩
  | true, false => some low
  | false, true => some high
  | false, false => none

/-- The decimal with the fewest digits that reads back to the positive finite number `x`. -/
def shortest (x : Binary64) : Decimal :=
  let found := (List.range 17).findSome? fun n => x.withDigits? (n + 1)
  (found.getD ⟨x.fraction.1, 0⟩).strip 20

/-- How the fewest digits are laid out. Positional text is used while the count of whole digits
lies between `least` and `most`; a power of ten is written with `plus` before a positive one and
`width` digits at least. -/
structure Layout where
  least : Int
  most : Int
  plus : Text
  width : Nat

def Layout.power (layout : Layout) (power : Int) : Text :=
  let sign : Text := if power < 0 then "-" else layout.plus
  "e" ++ sign ++ (Text.ofNat power.natAbs).zeroPad layout.width

/-- The text of a decimal. Positional text always has a point; scientific text has one only between
digits. -/
def Layout.render (layout : Layout) (d : Decimal) : Text :=
  let digits := Text.ofNat d.digits
  let whole : Int := if d.digits = 0 then 1 else digits.length + d.power
  if layout.least ≤ whole ∧ whole ≤ layout.most then
    if whole ≤ 0 then "0." ++ List.replicate (-whole).toNat (CodePoint.ofChar '0') ++ digits
    else if digits.length ≤ whole.toNat then
      digits ++ List.replicate (whole.toNat - digits.length) (CodePoint.ofChar '0') ++ ".0"
    else digits.take whole.toNat ++ "." ++ digits.drop whole.toNat
  else
    let fractional := digits.drop 1
    let point : Text := if fractional.isEmpty then [] else "."
    digits.take 1 ++ point ++ fractional ++ layout.power (whole - 1)

/-- The text of a number with the fewest digits. -/
def render (layout : Layout) (x : Binary64) : Text :=
  if x.isNan then "nan"
  else
    let sign : Text := if x.negative then "-" else []
    if x.isInfinite then sign ++ "inf"
    else if x.code = 0 then sign ++ layout.render ⟨0, 0⟩
    else sign ++ layout.render x.shortest

/-- In messages a number is positional from 0.0001 to below ten to the power of 16, and a power of ten is signed
and has two digits at least. -/
def messageLayout : Layout := ⟨-3, 16, "+", 2⟩

def text (x : Binary64) : Text := x.render messageLayout

/-- The text of a number with `places` digits after the point, rounded half to even. -/
def fixed (x : Binary64) (places : Nat) : Text :=
  if x.isNan then "nan"
  else
    let sign : Text := if x.negative then "-" else []
    if x.isInfinite then sign ++ "inf"
    else
      let scaled := roundHalfEven (x.fraction.1 * tenTo places) x.fraction.2
      let digits := (Text.ofNat scaled).zeroPad (places + 1)
      if places = 0 then sign ++ digits
      else
        let whole := digits.length - places
        sign ++ digits.take whole ++ "." ++ digits.drop whole

end Binary64

end Mender
