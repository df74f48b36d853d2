import Mender.Number.Amount

namespace Mender.Yaml

def codePrime : Nat := 0x1FFFFFFFFFFFFFFF

def infiniteCode : Nat := 314159

def halved : (times : Nat) → Nat → Nat
  | 0, n => n
  | times + 1, n => halved times (if n % 2 = 0 then n / 2 else (n + codePrime) / 2)

/-- The code of a number, which is the same for equal numbers. Denominators are powers of two. -/
def numberCode (a : Amount) : Nat :=
  let size :=
    match a.toRat? with
    | some r => halved r.den.log2 (r.num.natAbs % codePrime)
    | none => infiniteCode
  if a.isNegative && size ≠ 0 then twoTo 64 - max size 2 else size

/-- The slots that are looked at from one on: ten of them, or one where there are not so many left. -/
def slotsFrom (count first : Nat) : List Nat :=
  if first + 9 < count then (List.range 10).map (first + ·) else [first]

/-- The first free slot for a code, from one on. -/
def freeSlot? {α : Type} (slots : Array (Option α)) : (fuel : Nat) → (first code : Nat) → Option Nat
  | 0, _, _ => none
  | fuel + 1, first, code =>
    match (slotsFrom slots.size first).find? fun place => (slots.getD place none).isNone with
    | some place => some place
    | none => freeSlot? slots fuel ((first * 5 + 1 + code / 32) % slots.size) (code / 32)

def putInSlot {α : Type} (slots : Array (Option α)) (item : Nat × α) : Array (Option α) :=
  match freeSlot? slots (slots.size + 16) (item.1 % slots.size) item.1 with
  | some place => slots.set! place (some item.2)
  | none => slots

/-- The least power of two that is greater than a number, and not less than eight. -/
def slotCount (least : Nat) : Nat := max 8 (twoTo (least.log2 + 1))

/-- Some things with their codes in the order of a set. -/
def setOrder {α : Type} (items : List (Nat × α)) : List α :=
  let count := if items.length < 5 then 8 else slotCount (2 * items.length)
  (items.foldl putInSlot (Array.replicate count none)).toList.filterMap id

end Mender.Yaml
