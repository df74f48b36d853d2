import Mender.Record.Scalar
import Mender.Settings.Bindings
import Mender.Tuning
import Mender.Text.Encoding

namespace Mender.Environment

/-- The second halves of pairs from U+DC80 to U+DCFF stand for single octets, and can be held. -/
def isOctetMark (c : CodePoint) : Bool := 0xDC80 ≤ c.val && c.val ≤ 0xDCFF

/-- The text of a value, if the system can hold it as far as its code points go. -/
def heldText (v : Json) : Except Fault Text :=
  match v with
  | .text t =>
    match t.encodingFaultExcept? isOctetMark with
    | none => .ok t
    | some f => .error f
  | v => .error ⟨"TypeError", "str expected, not " ++ v.kindName⟩

def binding (name : Text) (value : Json) : Except Fault (Text × Text) := do
  let name ← heldText (.text name)
  let value ← heldText value
  if (name ++ value).any (·.val = 0) then .error ⟨"ValueError", "embedded null byte"⟩
  else if name.contains (CodePoint.ofChar '=') then
    .error ⟨"ValueError", "illegal environment variable name"⟩
  else if name.isEmpty then .error ⟨"OSError", "[Errno 22] Invalid argument"⟩
  else .ok (name, value)

def ofFields (fields : List (Text × Json)) : Except Fault (List (Text × Text)) :=
  fields.mapM fun (name, value) => binding name value

end Mender.Environment

namespace Mender

structure Settings where
  projectName : Text
  projectVersion : Text
  debug : Bool
  messageLimit : Int
  modelKey : Option Text
  model : Text
  contextLines : Int
  modelTimeout : Int
  modelRetries : Int
  oracleTimeout : Binary64
  generatorTimeout : Binary64
  maxIterations : Int
  similarityThreshold : Binary64
  maxNameSuggestions : Int
  repeatedThreshold : Int
  bindingTemplate : Text
  batchWorkers : Int
  reportDirectory : Text

namespace Settings

open Record Checked

def namePrefix : Text := "CHL_"

/-- The names and values that are settings, without what all names start with. -/
def named (bindings : List (Text × Text)) : List (Text × Json) :=
  (bindings.filter fun p => p.1.startsWith namePrefix).map fun (name, value) =>
    (name.drop namePrefix.length, .text value)

/-- The values of the environment, and those of the file for other names. -/
def merged (environment file : List (Text × Text)) : List (Text × Text) :=
  environment ++ file.filter fun p => (environment.find? (·.1 = p.1)).isNone

/-- Reads the settings from named values; `project` and `version` hold where nothing else is said. -/
def check (project version : Text) (r : List (Text × Json)) : Checked Settings :=
  Settings.mk
    <$> defaulted r "PROJECT_NAME" project text
    <*> defaulted r "PROJECT_VERSION" version text
    <*> defaulted r "DEBUG" false truth
    <*> defaulted r "LOG_MESSAGE_MAX_LEN" 2000 integer
    <*> defaulted r "GOOGLE_API_KEY" none (nullable text)
    <*> defaulted r "AI_MODEL" Tuning.standardModel text
    <*> defaulted r "AI_CONTEXT_LINES" 20 integer
    <*> defaulted r "AI_API_TIMEOUT_SECONDS" 60 integer
    <*> defaulted r "AI_API_MAX_RETRIES" 3 integer
    <*> defaulted r "ORACLE_TIMEOUT_SECONDS" (Tuning.whole 30) (number .refused)
    <*> defaulted r "GENERATOR_TIMEOUT_SECONDS" (Tuning.whole 90) (number .refused)
    <*> defaulted r "MAX_HEALING_ITERATIONS" 5 integer
    <*> defaulted r "SIMILARITY_THRESHOLD" Tuning.standardThreshold (number .refused)
    <*> defaulted r "MAX_SCHEMA_SUGGESTIONS" 3 integer
    <*> defaulted r "REPEATED_PATTERN_THRESHOLD" 3 integer
    <*> defaulted r "BINDING_TEMPLATE" Tuning.standardTemplate text
    <*> defaulted r "BATCH_WORKERS" 4 integer
    <*> defaulted r "REPORT_DIR" "./reports" text

/-- Why there are no settings: something could not be written where it is read from, or what was read
is wrong. -/
inductive LoadError where
  | fault (f : Fault)
  | refused (r : Refusal)

/-- The settings of an environment and the text of a settings file. -/
def load (project version : Text) (environment : List (Text × Json)) (file : Text) :
    Except LoadError Settings := do
  let environment ← (Environment.ofFields environment).mapError .fault
  match file.encodingFault? with
  | some f => .error (.fault f)
  | none =>
    let bindings := merged environment (Bindings.ofFile environment file)
    ((check project version (named bindings)).toExcept "Settings").mapError .refused

def toJson (s : Settings) : Json :=
  .object
    [("PROJECT_NAME", .text s.projectName), ("PROJECT_VERSION", .text s.projectVersion),
      ("DEBUG", .bool s.debug), ("LOG_MESSAGE_MAX_LEN", .int s.messageLimit),
      ("GOOGLE_API_KEY", Json.ofOption .text s.modelKey), ("AI_MODEL", .text s.model),
      ("AI_CONTEXT_LINES", .int s.contextLines), ("AI_API_TIMEOUT_SECONDS", .int s.modelTimeout),
      ("AI_API_MAX_RETRIES", .int s.modelRetries),
      ("ORACLE_TIMEOUT_SECONDS", .real s.oracleTimeout),
      ("GENERATOR_TIMEOUT_SECONDS", .real s.generatorTimeout),
      ("MAX_HEALING_ITERATIONS", .int s.maxIterations),
      ("SIMILARITY_THRESHOLD", .real s.similarityThreshold),
      ("MAX_SCHEMA_SUGGESTIONS", .int s.maxNameSuggestions),
      ("REPEATED_PATTERN_THRESHOLD", .int s.repeatedThreshold),
      ("BINDING_TEMPLATE", .text s.bindingTemplate), ("BATCH_WORKERS", .int s.batchWorkers),
      ("REPORT_DIR", .text s.reportDirectory)]

/-- The tuning that the settings ask for. A model is used if there is a key for it, be it empty. -/
def tuning (s : Settings) : Tuning :=
  { Tuning.standard with
    maxIterations := .int s.maxIterations
    oracleTimeout := .real s.oracleTimeout
    generatorTimeout := .real s.generatorTimeout
    similarityThreshold := .real s.similarityThreshold
    maxNameSuggestions := .int s.maxNameSuggestions
    bindingTemplate := .text s.bindingTemplate
    usesModel := .bool s.modelKey.isSome
    model := .text s.model
    modelContextLines := .int s.contextLines
    modelTimeout := .int s.modelTimeout
    modelMaxRetries := .int s.modelRetries
    repeatedThreshold := .int s.repeatedThreshold }

end Settings

end Mender
