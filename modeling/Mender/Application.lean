import Mender.Generator.Basic
import Mender.Oracle.Memo
import Mender.Ranking

namespace Mender

inductive ApplyError where
  | ranking (f : Fault)
  | oracle (e : OracleError)

variable {ω : Type}

def applyInOrder (o : Oracle ω) (limit : Limit) (current : Text) :
    List Fix → StateM (Bench ω) (Except OracleError Text)
  | [] => pure (.ok current)
  | fix :: rest => do
    match fix.apply current with
    | .error e =>
      Bench.write .warning .session ("Failed to apply fix '" ++ fix.title ++ "': " ++ e.message)
      applyInOrder o limit current rest
    | .ok candidate =>
      match ← Bench.assess o limit current candidate with
      | .error e => pure (.error e)
      | .ok assessment =>
        if assessment.improved then
          Bench.write .debug .session ("Applied fix '" ++ fix.title ++ "'")
          applyInOrder o limit candidate rest
        else
          Bench.write .debug .session ("Skipped fix '" ++ fix.title ++ "' (no improvement)")
          applyInOrder o limit current rest

/-- The text after the fixes that help. -/
def applyFixes (o : Oracle ω) (limit : Limit) (t : Text) (fixes : List Fix) :
    StateM (Bench ω) (Except ApplyError Text) := do
  match rankFixes? fixes with
  | .error f => pure (.error (.ranking f))
  | .ok ranked =>
    match ← applyInOrder o limit t ranked with
    | .error e => pure (.error (.oracle e))
    | .ok healed => pure (.ok healed)

/-- The fixes that the generators propose for some defects, the most severe defects first, ranked. -/
def fixSuggestions {ω : Type} (gs : List (Generator ω)) (limit : Limit) (t : Text)
    (defects : List Defect) : StateM (Desk ω) (Except Fault (List Fix)) := do
  let found ← Generator.fixesForAll gs limit t (Defect.prioritize defects)
  pure (rankFixes? found)

end Mender
