import Mender.Edit
import Mender.Number.Binary64

namespace Mender

structure Confidence where
  value : Binary64
  zero_le : 0 ≤ value.rank
  le_one : value.rank ≤ oneCode
deriving DecidableEq

namespace Confidence

/-- The number as a confidence, if it lies from zero to one. -/
def ofBinary64? (x : Binary64) : Option Confidence :=
  if h : 0 ≤ x.rank ∧ x.rank ≤ oneCode then some ⟨x, h.1, h.2⟩ else none

def zero : Confidence := ⟨Binary64.ofCode false 0, by decide, by decide⟩

def atLeast (a b : Confidence) : Bool := b.value.rank ≤ a.value.rank

end Confidence

inductive Strategy where
  | rule
  | knownName
  | model
deriving DecidableEq

def Strategy.word : Strategy → Text
  | rule => "rule_based"
  | knownName => "schema_based"
  | model => "external_ai"

/-- A proposed fix. A fix that was received under a name keeps it. -/
structure Fix where
  name : Option Text
  title : Text
  description : Text
  edits : List Edit
  confidence : Confidence
  strategy : Strategy
deriving DecidableEq

def Fix.apply (f : Fix) (t : Text) : Except EditError Text := applyEdits t f.edits

end Mender
