import Mender.Fix

namespace Mender

inductive StopReason where
  | converged
  | noProgress
  | maxIterations
  | oracleFailure
  | cancelled
  | error
deriving DecidableEq

namespace StopReason

def all : List StopReason :=
  [converged, noProgress, maxIterations, oracleFailure, cancelled, error]

def word : StopReason → Text
  | converged => "converged"
  | noProgress => "no_progress"
  | maxIterations => "max_iterations"
  | oracleFailure => "oracle_failure"
  | cancelled => "cancelled"
  | error => "error"

end StopReason

/-- The defects of a text before and after a change, by count, and those that remain. -/
structure Assessment where
  improved : Bool
  delta : Int
  before : Int
  after : Int
  remaining : List Defect
deriving DecidableEq

/-- One pass over the defects of a text: the defects found, and the fixes accepted in order. -/
structure HealingStep where
  iteration : Int
  defectsFound : Int
  fixesApplied : Int
  textChanged : Bool
  defects : List Defect
  appliedFixes : List Fix
deriving DecidableEq

/-- The end of a session. A session that could not finish has no final defects and an error. -/
structure Outcome where
  session : Text
  success : Bool
  given : Text
  healed : Text
  iterations : Int
  totalDefects : Int
  totalFixes : Int
  steps : List HealingStep
  final : Option (List Defect)
  confidence : Confidence
  stopReason : StopReason
  duration : Binary64
  error : Option Text
deriving DecidableEq

end Mender
