namespace Mender

abbrev twoTo (n : Nat) : Nat := Nat.pow 2 n

abbrev tenTo (n : Nat) : Nat := Nat.pow 10 n

/-- All codes lie below this number, two to the power of 63. -/
abbrev codeLimit : Nat := 0x8000000000000000

/-- How many codes there are from a power of two to the next, two to the power of 52. -/
abbrev octave : Nat := 0x10000000000000

def infinityCode : Nat := 0x7FF0000000000000

abbrev oneCode : Nat := 0x3FF0000000000000

structure Binary64 where
  negative : Bool
  code : Nat
  isCode : code < codeLimit
deriving DecidableEq

/-- The nearest natural number to a fraction, and the even one of two that are equally near. -/
def roundHalfEven (num den : Nat) : Nat :=
  let quotient := num / den
  let twice := 2 * (num % den)
  if twice < den then quotient
  else if den < twice then quotient + 1
  else quotient + quotient % 2

namespace Binary64

def bits (x : Binary64) : Nat := (if x.negative then codeLimit else 0) + x.code

/-- A number with this sign and code, infinity if the code is beyond it. -/
def ofCode (negative : Bool) (code : Nat) : Binary64 :=
  ⟨negative, min code infinityCode, by
    have : infinityCode < codeLimit := by decide
    omega⟩

def nan : Binary64 := ⟨false, 0x7FF8000000000000, by decide⟩

instance : Inhabited Binary64 := ⟨ofCode false 0⟩

def isNan (x : Binary64) : Bool := infinityCode < x.code

def isInfinite (x : Binary64) : Bool := x.code == infinityCode

def isFinite (x : Binary64) : Bool := x.code < infinityCode

def neg (x : Binary64) : Binary64 := { x with negative := !x.negative }

/-- The place of a number in the order of numbers. The two zeros share a place. -/
def rank (x : Binary64) : Int := if x.negative then -(x.code : Int) else x.code

def lt (x y : Binary64) : Bool := !x.isNan && !y.isNan && x.rank < y.rank

def le (x y : Binary64) : Bool := !x.isNan && !y.isNan && x.rank ≤ y.rank

/-- A finite number is its significand times two to this power. -/
def exponent (x : Binary64) : Int := (max (x.code / octave) 1 : Nat) - 1075

def significand (x : Binary64) : Nat :=
  if x.code / octave = 0 then x.code else octave + x.code % octave

/-- The magnitude of a finite number as numerator and denominator. -/
def fraction (x : Binary64) : Nat × Nat :=
  (x.significand * twoTo x.exponent.toNat, twoTo (-x.exponent).toNat)

/-- The greatest power to which two is at most num / den, both positive. -/
def floorLog2 (num den : Nat) : Int :=
  let guess : Int := (num.log2 : Int) - den.log2
  if den * twoTo guess.toNat ≤ num * twoTo (-guess).toNat then guess else guess - 1

/-- The code of the number nearest to a fraction. -/
def nearestCode (num den : Nat) : Nat :=
  if num = 0 then 0
  else
    let scale := max (floorLog2 num den - 52) (-1074)
    roundHalfEven (num * twoTo (-scale).toNat) (den * twoTo scale.toNat)
      + (scale + 1074).toNat * octave

/-- The number nearest to a fraction with a positive denominator. -/
def ofFraction (negative : Bool) (num den : Nat) : Binary64 :=
  ofCode negative (nearestCode num den)

/-- The number nearest to digits times a power of ten. Powers far outside the range of the format
are answered without computing them. -/
def ofDecimal (negative : Bool) (digits : Nat) (power : Int) : Binary64 :=
  if digits = 0 then ofCode negative 0
  else if 400 < power then ofCode negative infinityCode
  else if power < -400 - (digits.log2 : Int) then ofCode negative 0
  else ofFraction negative (digits * tenTo power.toNat) (tenTo (-power).toNat)

/-- The number nearest to an integer, unless that is infinite. -/
def ofInt? (n : Int) : Option Binary64 :=
  let x := ofFraction (decide (n < 0)) n.natAbs 1
  if x.isFinite then some x else none

/-- The number nearest to the quotient of two integers, unless that is infinite. -/
def quotient? (n d : Int) : Option Binary64 :=
  let x := ofFraction (decide (n < 0) != decide (d < 0)) n.natAbs d.natAbs
  if x.isFinite then some x else none

def mul (x y : Binary64) : Binary64 :=
  let negative := x.negative != y.negative
  if x.isNan || y.isNan then nan
  else if x.isInfinite || y.isInfinite then
    if x.code = 0 || y.code = 0 then nan else ofCode negative infinityCode
  else ofFraction negative (x.fraction.1 * y.fraction.1) (x.fraction.2 * y.fraction.2)

/-- The sum. An exact sum of zero is negative only if both terms are. -/
def add (x y : Binary64) : Binary64 :=
  if x.isNan || y.isNan then nan
  else if x.isInfinite then if y.isInfinite && x.negative != y.negative then nan else x
  else if y.isInfinite then y
  else
    let left := x.fraction.1 * y.fraction.2
    let right := y.fraction.1 * x.fraction.2
    let den := x.fraction.2 * y.fraction.2
    if x.negative = y.negative then ofFraction x.negative (left + right) den
    else if right < left then ofFraction x.negative (left - right) den
    else if left < right then ofFraction y.negative (right - left) den
    else ofCode false 0

def sub (x y : Binary64) : Binary64 := x.add y.neg

/-- The lesser of two, the first unless the second is less. -/
def least (x y : Binary64) : Binary64 := if y.lt x then y else x

/-- The greater of two, the first unless the second is greater. -/
def greatest (x y : Binary64) : Binary64 := if x.lt y then y else x

end Binary64

end Mender
