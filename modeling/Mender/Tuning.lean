import Mender.Limit
import Mender.Number.Numeral

namespace Mender

structure Tuning where
  maxIterations : Json
  oracleTimeout : Json
  generatorTimeout : Json
  similarityThreshold : Json
  maxNameSuggestions : Json
  bindingTemplate : Json
  usesModel : Json
  model : Json
  modelContextLines : Json
  modelTimeout : Json
  modelMaxRetries : Json
  repeatedThreshold : Json
  manyErrorsThreshold : Json

namespace Tuning

def whole (n : Nat) : Binary64 := Binary64.ofFraction false n 1

def standardThreshold : Binary64 := Binary64.ofFraction false 1 2

def standardTemplate : Text := "import \x7bname\x7d"

def standardModel : Text := "gemini-3-flash-preview"

/-- The values that hold where nothing else is said. -/
def standard : Tuning where
  maxIterations := .int 5
  oracleTimeout := .real (whole 30)
  generatorTimeout := .real (whole 90)
  similarityThreshold := .real standardThreshold
  maxNameSuggestions := .int 3
  bindingTemplate := .text standardTemplate
  usesModel := .bool true
  model := .text standardModel
  modelContextLines := .int 20
  modelTimeout := .real (whole 60)
  modelMaxRetries := .int 3
  repeatedThreshold := .int 3
  manyErrorsThreshold := .int 5

/-- One field of a tuning: its name, its value, and how a value is put there. A field may be meant for
binary64 numbers. -/
structure Field where
  name : Text
  get : Tuning → Json
  put : Tuning → Json → Tuning
  isReal : Bool

/-- All fields, in order. -/
def fields : List Field :=
  [⟨"max_iterations", maxIterations, fun t v => { t with maxIterations := v }, false⟩,
    ⟨"oracle_timeout_seconds", oracleTimeout, fun t v => { t with oracleTimeout := v }, true⟩,
    ⟨"generator_timeout_seconds", generatorTimeout, fun t v => { t with generatorTimeout := v }, true⟩,
    ⟨"similarity_threshold", similarityThreshold, fun t v => { t with similarityThreshold := v }, true⟩,
    ⟨"max_schema_suggestions", maxNameSuggestions, fun t v => { t with maxNameSuggestions := v }, false⟩,
    ⟨"binding_template", bindingTemplate, fun t v => { t with bindingTemplate := v }, false⟩,
    ⟨"use_ai", usesModel, fun t v => { t with usesModel := v }, false⟩,
    ⟨"ai_model", model, fun t v => { t with model := v }, false⟩,
    ⟨"ai_context_lines", modelContextLines, fun t v => { t with modelContextLines := v }, false⟩,
    ⟨"ai_timeout_seconds", modelTimeout, fun t v => { t with modelTimeout := v }, true⟩,
    ⟨"ai_max_retries", modelMaxRetries, fun t v => { t with modelMaxRetries := v }, false⟩,
    ⟨"repeated_pattern_threshold", repeatedThreshold, fun t v => { t with repeatedThreshold := v }, false⟩,
    ⟨"many_errors_threshold", manyErrorsThreshold, fun t v => { t with manyErrorsThreshold := v }, false⟩]

def field? (name : Text) : Option Field := fields.find? fun f => f.name = name

/-- The first given name that is no field. -/
def unknown? (given : List (Text × Json)) : Option Text :=
  (given.map (·.1)).find? fun name => (field? name).isNone

def put (t : Tuning) (name : Text) (v : Json) : Tuning :=
  match field? name with
  | none => t
  | some f => f.put t v

/-- The tuning with some of its fields given anew, or the first name that is no field. -/
def with? (t : Tuning) (given : List (Text × Json)) : Except Text Tuning :=
  match unknown? given with
  | some name => .error name
  | none => .ok (given.foldl (fun t (name, v) => t.put name v) t)

/-- The tuning as data. Fields that are meant for binary64 numbers must be such numbers there. -/
def toJson (t : Tuning) : Except Fault Json := do
  let values ← fields.mapM fun f => do
    let v ← if f.isReal then (Binary64.ofLoose (f.get t)).map .real else pure (f.get t)
    pure (f.name, v)
  pure (.object values)

def oracleLimit (t : Tuning) : Limit := .ofJson t.oracleTimeout

def generatorLimit (t : Tuning) : Limit := .ofJson t.generatorTimeout

end Tuning

end Mender
