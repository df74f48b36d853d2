import Mender.Analysis
import Mender.Diff.Unified
import Mender.Journal
import Mender.Moment
import Mender.Record.Writing
import Mender.Tuning

namespace Mender

def countsToJson (counts : List (Text × Nat)) : Json :=
  .object (counts.map fun (key, n) => (key, .int n))

def Analysis.toJson (a : Analysis) : Json :=
  .object
    [("total_defects", .int a.total), ("by_category", countsToJson a.byCategory),
      ("by_severity", countsToJson a.bySeverity), ("by_fixability", countsToJson a.byFixability),
      ("repeated_patterns", Json.ofList .text a.repeatedPatterns),
      ("recommendations", Json.ofList .text a.recommendations)]

structure Report where
  outcome : Outcome
  initial : Analysis
  final : Analysis
  diff : Text

namespace Outcome

def finalDefects (o : Outcome) : List Defect := o.final.getD []

/-- The defects of the text at the start: those of the first step, or those at the end if there was
no step. -/
def initialDefects (o : Outcome) : List Defect :=
  match o.steps with
  | [] => o.finalDefects
  | first :: _ => first.defects

end Outcome

namespace Report

/-- The report on an outcome; `name` stands for the text in the diff. -/
def ofOutcome (o : Outcome) (name : Text) (t : Tuning) : Except Fault Report := do
  let analysis (defects : List Defect) : Except Fault Analysis :=
    Analysis.ofDefectsLoosely defects t.repeatedThreshold t.manyErrorsThreshold
  let initial ← analysis o.initialDefects
  let final ← analysis o.finalDefects
  pure ⟨o, initial, final, Diff.unified o.given o.healed name⟩

def toJson (r : Report) (made : Moment) : Json :=
  .object
    [("session_id", .text r.outcome.session), ("generated_at", .text made.dataText),
      ("result", r.outcome.toJson), ("initial_analysis", r.initial.toJson),
      ("final_analysis", r.final.toJson), ("diff", .text r.diff)]

/-- The parts of a path between its slashes. Parts that lead nowhere are left out. -/
def pathParts (t : Text) : List Text :=
  ((t.splitOn (CodePoint.ofChar '/')).filter fun part => !part.isEmpty && part ≠ ".")

def filePath (r : Report) : Text := Text.joined "/" (pathParts (r.outcome.session ++ ".json"))

/-- The path and the text of the file that a report goes into, if there can be such a file. -/
def file (r : Report) (made : Moment) : Except Fault (Text × Text) :=
  if r.filePath.any (·.val = 0) then .error ⟨"ValueError", "embedded null byte"⟩
  else (r.toJson made).writable.map fun v => (r.filePath, v.pretty)

end Report

end Mender
