import Mender.Fault
import Mender.Number.Amount

namespace Mender

/-- A value of a kind, or what was given in its place. -/
inductive Loose (α : Type) where
  | fit (a : α)
  | odd (v : Json)

namespace Loose

/-- A given value as an integer. Truth values count as zero and one. -/
def integer : Json → Loose Int
  | .int n => fit n
  | .bool b => fit (if b then 1 else 0)
  | v => odd v

/-- A given value as an amount. Truth values count as zero and one. -/
def amount : Json → Loose Amount
  | .int n => fit (.whole n)
  | .bool b => fit (.whole (if b then 1 else 0))
  | .real x => fit (.real x)
  | v => odd v

def text : Json → Loose Text
  | .text t => fit t
  | v => odd v

/-- A given value as the number of items that are kept; null keeps all. -/
def count : Json → Loose (Option Int)
  | .null => fit none
  | .int n => fit (some n)
  | .bool b => fit (some (if b then 1 else 0))
  | v => odd v

def isZero : Loose Amount → Bool
  | fit a => a.isZero
  | odd _ => false

end Loose

namespace Fault

def notCounted (v : Json) : Fault :=
  ⟨"TypeError", "'" ++ v.kindName ++ "' object cannot be interpreted as an integer"⟩

def notPlace : Fault :=
  ⟨"TypeError", "slice indices must be integers or None or have an __index__ method"⟩

def notCompared (sign left right : Text) : Fault :=
  ⟨"TypeError", "'" ++ sign ++ "' not supported between instances of '" ++ left ++ "' and '" ++ right ++ "'"⟩

def notCombined (sign left right : Text) : Fault :=
  ⟨"TypeError", "unsupported operand type(s) for " ++ sign ++ ": '" ++ left ++ "' and '" ++ right ++ "'"⟩

def notAdded (v : Json) : Fault :=
  match v with
  | .text _ | .array _ =>
    ⟨"TypeError", "can only concatenate " ++ v.kindName ++ " (not \"int\") to " ++ v.kindName⟩
  | v => notCombined "+" v.kindName "int"

def noAttribute (v : Json) (name : Text) : Fault :=
  ⟨"AttributeError", "'" ++ v.kindName ++ "' object has no attribute '" ++ name ++ "'"⟩

end Fault

def Amount.kindName : Amount → Text
  | whole _ => "int"
  | real _ => "float"

namespace Json

/-- The value counts as false: nothing, zero or empty. -/
def isBlank : Json → Bool
  | null => true
  | bool b => !b
  | int n => n = 0
  | real x => x.code = 0
  | text t => t.isEmpty
  | array items => items.isEmpty
  | object fields => fields.isEmpty

/-- The value as it stands in running text. -/
def plain : Json → Text
  | text t => t
  | v => v.shown

end Json

end Mender
