import Mender.Outcome
import Mender.Json.Value

namespace Mender

open Json (ofList ofOption)

def Position.toJson (p : Position) : Json :=
  .object [("line", .int p.line), ("column", .int p.column)]

def Defect.toJson (d : Defect) : Json :=
  .object
    [("message", .text d.message), ("severity", .text d.severity.word),
      ("position", ofOption Position.toJson d.position), ("rule", ofOption .text d.rule),
      ("fixable", ofOption .bool d.fixable)]

def Edit.toJson (e : Edit) : Json :=
  .object
    [("kind", .text e.kind.word), ("start", e.start.toJson),
      ("end", ofOption Position.toJson e.stop), ("text", ofOption .text e.text)]

/-- A fix that was received without a name is written without one. -/
def Fix.toJson (f : Fix) : Json :=
  let name : List (Text × Json) :=
    match f.name with
    | some n => [("id", .text n)]
    | none => []
  let parts : List (Text × Json) :=
    [("title", .text f.title), ("description", .text f.description),
      ("edits", ofList Edit.toJson f.edits), ("confidence", .real f.confidence.value),
      ("source", .text f.strategy.word)]
  .object (name ++ parts)

def Assessment.toJson (a : Assessment) : Json :=
  .object
    [("improved", .bool a.improved), ("defect_delta", .int a.delta),
      ("defects_before", .int a.before), ("defects_after", .int a.after),
      ("remaining", ofList Defect.toJson a.remaining)]

def HealingStep.toJson (s : HealingStep) : Json :=
  .object
    [("iteration", .int s.iteration), ("defects_found", .int s.defectsFound),
      ("fixes_applied", .int s.fixesApplied), ("text_changed", .bool s.textChanged),
      ("defects", ofList Defect.toJson s.defects), ("applied_fixes", ofList Fix.toJson s.appliedFixes)]

/-- A verdict on a text: its defects, and that there are none. -/
def verdictToJson (defects : List Defect) : Json :=
  .object [("defects", ofList Defect.toJson defects), ("success", .bool defects.isEmpty)]

def Outcome.toJson (o : Outcome) : Json :=
  .object
    [("session_id", .text o.session), ("success", .bool o.success),
      ("original_text", .text o.given), ("healed_text", .text o.healed),
      ("iterations", .int o.iterations), ("total_defects", .int o.totalDefects),
      ("total_fixes_applied", .int o.totalFixes), ("steps", ofList HealingStep.toJson o.steps),
      ("final_oracle_result", ofOption verdictToJson o.final),
      ("confidence", .real o.confidence.value), ("stop_reason", .text o.stopReason.word),
      ("duration_seconds", .real o.duration), ("error", ofOption .text o.error)]

end Mender
