import Mender.Number.Binary64
import Mender.Text.CodePoint

namespace Mender

section Distance

variable {α : Type} [DecidableEq α]

/-- The row after one more item `x`, from the row before it. Each distance comes from the one above
it, from the one on its left, or from the one in the corner between these. -/
def nextRow (x : α) : (target : List α) → (row : List Nat) → (left : Nat) → List Nat
  | y :: target, corner :: above :: row, left =>
    let substituted := corner + if x = y then 0 else 1
    let here := min (above + 1) (min (left + 1) substituted)
    left :: nextRow x target (above :: row) here
  | _, _, left => [left]

/-- The distances of `source` to every start of `target`, the empty one first. -/
def distanceRow (source target : List α) : List Nat :=
  (source.zipIdx 1).foldl (fun row (x, left) => nextRow x target row left) (List.range (target.length + 1))

/-- The distance of `source` to the whole of `target`. -/
def rowDistance (source target : List α) : Nat := (distanceRow source target).getLastD 0

/-- The least number of single edits that turn `source` into `target`. -/
def editDistance (source target : List α) : Nat :=
  if source.length < target.length then rowDistance target source else rowDistance source target

end Distance

def longerLength (a b : Text) : Nat := max a.length b.length

/-- How much of the longer text is kept. -/
def keptLength (a b : Text) : Nat := longerLength a b - editDistance a b

/-- The share of the longer text that is kept; two empty texts are alike. -/
def similarity (a b : Text) : Binary64 :=
  if longerLength a b = 0 then Binary64.ofFraction false 1 1
  else Binary64.ofFraction false (keptLength a b) (longerLength a b)

end Mender
