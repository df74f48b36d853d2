import Mender.Generator.Basic
import Mender.Generator.Prompt
import Mender.Json.Reader
import Mender.Record.Reading
import Mender.Record.Writing
import Mender.Retry

namespace Mender

/-- One fix that a model suggests. -/
structure Suggestion where
  title : Text
  description : Text
  confidence : Confidence
  edits : List Edit

namespace Suggestion

def check (excess : Record.Excess) (v : Json) : Checked Suggestion :=
  Record.fields "AIFixSuggestion" v fun r =>
    Suggestion.mk
      <$> Record.required r "title" Record.text
      <*> Record.defaulted r "description" [] Record.text
      <*> Record.required r "confidence" (Confidence.check excess)
      <*> Record.defaulted r "edits" [] (Record.list Edit.check)

def checkAll (excess : Record.Excess) (v : Json) : Checked (List Suggestion) :=
  Record.fields "AIFixResponse" v fun r => Record.defaulted r "suggestions" [] (Record.list (check excess))

def ofReply (t : Text) : Checked (List Suggestion) :=
  (Record.ofText t).andThen (checkAll .infinite)

def toJson (s : Suggestion) : Json :=
  .object
    [("title", .text s.title), ("description", .text s.description),
      ("confidence", .real s.confidence.value), ("edits", Json.ofList Edit.toJson s.edits)]

def fix (s : Suggestion) : Fix :=
  ⟨none, s.title, s.description, s.edits, s.confidence, .model⟩

end Suggestion

/-- What a model is asked, and how it is to answer. -/
structure Request where
  model : Json
  contents : Text
  temperature : Binary64
  mime : Text
  system : Text

/-- How a request ends. -/
inductive ModelReply where
  | text (t : Option Text)
  | raised (f : Fault)
  | stalled

abbrev Client (ω : Type) := Request → ω → ModelReply × ω

/-- How a model is asked: its name, how many lines around the defect it sees, how long a request may
take and how often it is made again. -/
structure ModelSetup where
  model : Json
  contextLines : Json
  timeout : Limit
  maxRetries : Loose Int
  /-- The address of the manual that explains the flaws of replies. -/
  manual : Text

namespace ModelSetup

variable {ω : Type}

def request (s : ModelSetup) (d : Defect) (t : Text) : Except Fault Request := do
  let prompt ← Prompt.ofDefect d t s.contextLines
  pure {
    model := s.model
    contents := prompt
    temperature := Binary64.ofFraction false 1 1
    mime := "application/json"
    system := Prompt.system }

/-- One request under the time limit; no text counts as an empty one. -/
def ask (s : ModelSetup) (client : Client ω) (r : Request) : StateM (Desk ω) (Attempt Text) := do
  match s.timeout.fault? with
  | some f => pure (.raised f)
  | none =>
    match ← Desk.turn (client r) with
    | .text t => pure (.value (t.getD []))
    | .raised f => pure (.raised f)
    | .stalled => if ← Desk.sitOut s.timeout then pure (.raised .timeout) else pure .cut

/-- What makes a suggestion worth a fix: that it edits anything. -/
def worthwhile (suggestions : List Suggestion) : List Fix :=
  (suggestions.filter fun s => !s.edits.isEmpty).map Suggestion.fix

def note (d : Defect) (f : Fault) : StateM (Desk ω) Unit :=
  Desk.write .warning .model
    ("AI fix suggestion failed for '" ++ d.message ++ "': " ++ f.describe)

/-- The fixes that a model suggests when it is asked; the empty list if anything goes wrong, and
nothing if the asking is cut off. -/
def suggest (s : ModelSetup) (client : Client ω) (d : Defect) (r : Request) :
    StateM (Desk ω) (Option (List Fix)) := do
  let reply ← retry (.standard s.maxRetries) Fault.isTransient "gemini-fix-suggestion" (s.ask client r)
  match reply with
  | .cut => pure none
  | .raised f =>
    note d f
    pure (some [])
  | .value said =>
    match (Suggestion.ofReply said).toExcept "AIFixResponse" with
    | .error refusal =>
      note d (refusal.fault s.manual)
      pure (some [])
    | .ok suggestions => pure (some (worthwhile suggestions))

def generator (s : ModelSetup) (client : Client ω) : Generator ω where
  name := Strategy.model.word
  propose d t := do
    match s.request d t with
    | .error f => pure (.raised f)
    | .ok r =>
      match ← s.suggest client d r with
      | some fixes => pure (.ofFixes fixes)
      | none => pure .stalled

end ModelSetup

end Mender
