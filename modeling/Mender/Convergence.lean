import Mender.Loose
import Mender.Outcome

namespace Mender

/-- The reason to stop after the steps so far, if there is one. Without a step there is none. -/
def stopReason? (steps : List HealingStep) (maxIterations : Int) (remaining : Int) :
    Option StopReason :=
  match steps.getLast? with
  | none => none
  | some current =>
    if current.fixesApplied = 0 then some .noProgress
    else if remaining = 0 then some .converged
    else if maxIterations ≤ current.iteration then some .maxIterations
    else none

/-- The reason to stop with numbers that were given loosely. The budget is looked at last, and one that
is no number fails only then. -/
def stopReasonLoosely (steps : List HealingStep) (maxIterations remaining : Json) :
    Except Fault (Option StopReason) :=
  let remaining : Int := if (Loose.amount remaining).isZero then 0 else 1
  match Loose.amount maxIterations, steps.getLast? with
  | .fit a, some current =>
    .ok (stopReason? steps (if (Amount.whole current.iteration).lt a then current.iteration + 1
      else if a.isNan then current.iteration + 1 else current.iteration) remaining)
  | .odd v, some current =>
    if current.fixesApplied = 0 || remaining = 0 then .ok (stopReason? steps 0 remaining)
    else .error (.notCompared ">=" "int" v.kindName)
  | _, none => .ok none

inductive ConfidenceError where
  | quotientTooLarge
  | stepsTooLarge
deriving DecidableEq

def ConfidenceError.message : ConfidenceError → Text
  | quotientTooLarge => "integer division result too large for a float"
  | stepsTooLarge => "int too large to convert to float"

def oneTenth : Binary64 := Binary64.ofFraction false 1 10

/-- How sure a result is: 0.3 if it is not clean, 1 if there was nothing to do, and otherwise fixes
per defect less one tenth for each step after the first, kept between 0.5 and 1. -/
def healingConfidence (success : Bool) (totalDefects totalFixes steps : Int) :
    Except ConfidenceError Binary64 :=
  let one := Binary64.ofFraction false 1 1
  if !success then .ok (Binary64.ofFraction false 3 10)
  else if totalDefects = 0 then .ok one
  else
    match Binary64.quotient? totalFixes totalDefects, Binary64.ofInt? (steps - 1) with
    | none, _ => .error .quotientTooLarge
    | some _, none => .error .stepsTooLarge
    | some ratio, some extra =>
      .ok (Binary64.greatest (Binary64.ofFraction false 1 2)
        (Binary64.least one (ratio.sub (oneTenth.mul extra))))

end Mender
