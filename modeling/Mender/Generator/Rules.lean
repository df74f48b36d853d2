import Mender.Generator.Basic
import Mender.Loose
import Mender.Text.Brackets

namespace Mender

/-- The repairs that the generator knows. -/
inductive Repair where
  | removeLine
  | addBinding
  | stripTrailing
  | addColon
  | closeBrackets
deriving DecidableEq

namespace Repair

def all : List Repair := [removeLine, addBinding, stripTrailing, addColon, closeBrackets]

def rule : Repair → Text
  | removeLine => "unused-binding"
  | addBinding => "missing-binding"
  | stripTrailing => "trailing-whitespace"
  | addColon => "missing-colon"
  | closeBrackets => "unclosed-bracket"

def title : Repair → Text
  | removeLine => "Remove unused binding"
  | addBinding => "Add missing binding"
  | stripTrailing => "Strip trailing whitespace"
  | addColon => "Add missing colon"
  | closeBrackets => "Close open brackets"

def confidence : Repair → Confidence
  | removeLine | stripTrailing => ⟨Binary64.ofFraction false 9 10, by decide, by decide⟩
  | addBinding => ⟨Binary64.ofFraction false 8 10, by decide, by decide⟩
  | addColon => ⟨Binary64.ofFraction false 7 10, by decide, by decide⟩
  | closeBrackets => ⟨Binary64.ofFraction false 6 10, by decide, by decide⟩

/-- All repairs but one work on the line of the defect. -/
def needsPosition : Repair → Bool
  | addBinding => false
  | _ => true

end Repair

def ruleAliases : List (Text × Text) :=
  Text.pairs
    [("no-unused-vars", "unused-binding"), ("@typescript-eslint/no-unused-vars", "unused-binding"),
      ("F401", "unused-binding"), ("unused-import", "unused-binding"),
      ("TS2304", "missing-binding"), ("F821", "missing-binding"),
      ("undefined-name", "missing-binding"), ("W291", "trailing-whitespace"),
      ("no-trailing-spaces", "trailing-whitespace")]

def canonicalRule (rule : Text) : Text := ((ruleAliases.find? (·.1 = rule)).map (·.2)).getD rule

namespace Repair

def ofRule? (rule : Text) : Option Repair := all.find? fun r => r.rule = canonicalRule rule

def contentEdit (p : Position) (content : Text) : Edit := ⟨.replace, p.lineStart, none, some content⟩

/-- The binding for a name, which a template that is no text cannot give. -/
def bindingOf (template : Loose Text) (name : Text) : Except Fault Text :=
  match template with
  | .fit t => (Template.fill t [("name", name)]).mapError TemplateError.fault
  | .odd v => .error (.noAttribute v "format")

/-- The binding for the name that a message quotes, at the start of the text. There is none if the
message quotes no name, or if a line is that binding already. -/
def bindingEdits (template : Loose Text) (message : Text) (lines : List Text) :
    Except Fault (List Edit) :=
  match message.missingName?.or message.quotedName? with
  | none => .ok []
  | some name => do
    let binding ← bindingOf template name
    if binding ∈ lines then pure []
    else pure [⟨.insert, Position.textStart, none, some (binding ++ "\n")⟩]

/-- The edits of a repair on the line of a position; none if there is nothing to do. -/
def lineEdits (r : Repair) (p : Position) (line : Text) : List Edit :=
  match r with
  | removeLine => [⟨.delete, p.lineStart, none, none⟩]
  | addBinding => []
  | stripTrailing => if line.trimRight = line then [] else [contentEdit p line.trimRight]
  | addColon =>
    if line.trimRight.isEmpty || line.trimRight.endsWith ":" then []
    else [contentEdit p (line.trimRight ++ ":")]
  | closeBrackets =>
    if line.missingClosers.isEmpty then [] else [contentEdit p (line.trimRight ++ line.missingClosers)]

/-- The edits of a repair for a defect, or nothing if the repair needs a line that the text does not
have. -/
def edits? (r : Repair) (template : Loose Text) (d : Defect) (lines : List Text) :
    Except Fault (Option (List Edit)) :=
  if r.needsPosition then
    match d.position with
    | none => .ok none
    | some p =>
      match lines[p.line - 1]? with
      | none => .ok none
      | some line => .ok (some (r.lineEdits p line))
  else (bindingEdits template d.message lines).map some

def fixOf (r : Repair) (d : Defect) (edits : List Edit) : Fix :=
  let place : Text :=
    match d.line with
    | some line => " on line " ++ Text.ofNat line
    | none => []
  { name := none, title := r.title ++ place, description := r.rule ++ ": " ++ d.message
    edits := edits, confidence := r.confidence, strategy := .rule }

end Repair

/-- The fixes that the rules have for a defect, one at most. The second part says that a repair was
found but the text has no line for it. -/
def ruleFixes (template : Loose Text) (d : Defect) (t : Text) :
    Except Fault (List Fix × Option Repair) :=
  match d.rule.bind Repair.ofRule? with
  | none => .ok ([], none)
  | some r => do
    match ← r.edits? template d t.lines with
    | none => pure ([], some r)
    | some [] => pure ([], none)
    | some edits => pure ([r.fixOf d edits], none)

def ruleGenerator (ω : Type) (template : Loose Text) : Generator ω where
  name := Strategy.rule.word
  propose d t := do
    match ruleFixes template d t with
    | .error f => pure (.raised f)
    | .ok (fixes, homeless) =>
      if let some r := homeless then
        Desk.write .debug .rules
          ("Rule " ++ r.rule ++ ": no usable position in defect '" ++ d.message ++ "'")
      pure (.ofFixes fixes)

end Mender
