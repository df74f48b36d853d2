import Mender.Record.Scalar
import Mender.Outcome

namespace Mender

open Record Checked

def Record.ofText (t : Text) : Checked Json :=
  if t.isWritable then
    match Json.read? .strict t with
    | some v => valid v
    | none => .flaw (.text t) .invalidJson
  else .flaw (.text t) .notUnicode

/-- A line or column: an integer from one on. -/
def Record.ordinal (v : Json) : Checked { n : Nat // 1 ≤ n } :=
  (integer v).andThen fun n => if h : 1 ≤ n then valid ⟨n.toNat, by omega⟩ else .flaw v (.tooSmall 1)

/-- A number from zero to one. The upper bound is tested first. -/
def Confidence.check (excess : Excess) (v : Json) : Checked Confidence :=
  (number excess v).andThen fun x =>
    match Confidence.ofBinary64? x with
    | some c => valid c
    | none => if !x.isNan && x.rank < 0 then .flaw v (.tooSmall 0) else .flaw v (.tooLarge 1)

def Position.check (v : Json) : Checked Position :=
  fields "Position" v fun r =>
    (fun line column => ⟨line.1, column.1, line.2, column.2⟩)
      <$> required r "line" ordinal
      <*> defaulted r "column" ⟨1, Position.one_le_one⟩ ordinal

def Severity.check : Json → Checked Severity := member Severity.all Severity.word

def Defect.check (v : Json) : Checked Defect :=
  fields "Defect" v fun r =>
    Defect.mk
      <$> required r "message" text
      <*> defaulted r "severity" .error Severity.check
      <*> defaulted r "position" none (nullable Position.check)
      <*> defaulted r "rule" none (nullable text)
      <*> defaulted r "fixable" none (nullable truth)

def EditKind.check : Json → Checked EditKind := member [.insert, .delete, .replace] EditKind.word

def Edit.check (v : Json) : Checked Edit :=
  fields "TextEdit" v fun r =>
    Edit.mk
      <$> required r "kind" EditKind.check
      <*> required r "start" Position.check
      <*> defaulted r "end" none (nullable Position.check)
      <*> defaulted r "text" none (nullable Record.text)

def Strategy.check : Json → Checked Strategy := member [.rule, .knownName, .model] Strategy.word

def Fix.check (excess : Excess) (v : Json) : Checked Fix :=
  fields "CandidateFix" v fun r =>
    Fix.mk
      <$> defaulted r "id" none (fun v => (text v).map some)
      <*> required r "title" text
      <*> defaulted r "description" [] text
      <*> defaulted r "edits" [] (list Edit.check)
      <*> required r "confidence" (Confidence.check excess)
      <*> required r "source" Strategy.check

def Assessment.check (v : Json) : Checked Assessment :=
  fields "Assessment" v fun r =>
    Assessment.mk
      <$> required r "improved" truth
      <*> required r "defect_delta" integer
      <*> required r "defects_before" integer
      <*> required r "defects_after" integer
      <*> defaulted r "remaining" [] (list Defect.check)

def HealingStep.check (excess : Excess) (v : Json) : Checked HealingStep :=
  fields "HealingStep" v fun r =>
    HealingStep.mk
      <$> required r "iteration" integer
      <*> required r "defects_found" integer
      <*> required r "fixes_applied" integer
      <*> required r "text_changed" truth
      <*> defaulted r "defects" [] (list Defect.check)
      <*> defaulted r "applied_fixes" [] (list (Fix.check excess))

/-- The defects of a verdict on a text. -/
def Record.verdict (v : Json) : Checked (List Defect) :=
  fields "OracleResult" v fun r => defaulted r "defects" [] (list Defect.check)

def StopReason.check : Json → Checked StopReason := member StopReason.all StopReason.word

def Outcome.check (excess : Excess) (v : Json) : Checked Outcome :=
  fields "HealingResult" v fun r =>
    Outcome.mk
      <$> required r "session_id" text
      <*> required r "success" truth
      <*> required r "original_text" text
      <*> required r "healed_text" text
      <*> required r "iterations" integer
      <*> defaulted r "total_defects" 0 integer
      <*> defaulted r "total_fixes_applied" 0 integer
      <*> defaulted r "steps" [] (list (HealingStep.check excess))
      <*> defaulted r "final_oracle_result" none (nullable verdict)
      <*> required r "confidence" (Confidence.check excess)
      <*> required r "stop_reason" StopReason.check
      <*> defaulted r "duration_seconds" (Binary64.ofCode false 0) (number excess)
      <*> defaulted r "error" none (nullable text)

end Mender
