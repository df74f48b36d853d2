import Mender.Number.Decimal

namespace Mender

inductive Amount where
  | whole (n : Int)
  | real (x : Binary64)
deriving DecidableEq

namespace Amount

/-- The amount as it stands in a message. -/
def text : Amount → Text
  | whole n => Text.ofInt n
  | real x => x.text

/-- The first amount is less than the second, compared exactly. -/
def lt : Amount → Amount → Bool
  | whole m, whole n => m < n
  | real x, real y => x.lt y
  | whole n, real x =>
    if x.isNan then false
    else if x.isInfinite then !x.negative
    else n * x.fraction.2 < (if x.negative then -1 else 1) * x.fraction.1
  | real x, whole n =>
    if x.isNan then false
    else if x.isInfinite then x.negative
    else (if x.negative then -1 else 1) * x.fraction.1 < n * x.fraction.2

/-- The amount as an exact number, unless it is infinite or no number. -/
def toRat? : Amount → Option Rat
  | whole n => some (mkRat n 1)
  | real x =>
    if x.isFinite then
      some (mkRat ((if x.negative then -1 else 1) * x.fraction.1) x.fraction.2)
    else none

/-- The lesser of two, the first unless the second is less. -/
def least (x y : Amount) : Amount := if y.lt x then y else x

def isZero : Amount → Bool
  | whole n => n = 0
  | real x => x.code = 0

def isNan : Amount → Bool
  | whole _ => false
  | real x => x.isNan

def isNegative (a : Amount) : Bool := a.lt (whole 0)

/-- The amount as binary64, unless it is a whole amount beyond that range. -/
def toReal? : Amount → Option Binary64
  | whole n => Binary64.ofInt? n
  | real x => some x

def isHuge (a : Amount) : Bool := a.toReal?.isNone

end Amount

end Mender
