import Mender.Fault
import Mender.Text.Blank
import Mender.Text.Search
import Mender.Text.WordCharacter

namespace Mender

/-- One step on the way to a part of the data. -/
inductive Step where
  | field (name : Text)
  | item (index : Nat)
deriving DecidableEq

/-- What is wrong with a part of the data. -/
inductive Flaw where
  | invalidJson
  | notUnicode
  | notRecord (record : Text)
  | missing
  | notText
  | notInteger
  | integerText
  | integerFraction
  | integerSize
  | notFinite
  | notNumber
  | numberText
  | notTruth
  | truthText
  | notMember (words : List Text)
  | notList
  | tooSmall (least : Nat)
  | tooLarge (greatest : Nat)
deriving DecidableEq

namespace Flaw

def word : Flaw → Text
  | invalidJson => "json_invalid"
  | notUnicode => "string_unicode"
  | notRecord _ => "model_type"
  | missing => "missing"
  | notText => "string_type"
  | notInteger => "int_type"
  | integerText => "int_parsing"
  | integerFraction => "int_from_float"
  | integerSize => "int_parsing_size"
  | notFinite => "finite_number"
  | notNumber => "float_type"
  | numberText => "float_parsing"
  | notTruth => "bool_type"
  | truthText => "bool_parsing"
  | notMember _ => "enum"
  | notList => "list_type"
  | tooSmall _ => "greater_than_equal"
  | tooLarge _ => "less_than_equal"

/-- Words between quotes, with a word for the choice before the last one. -/
def choiceText : List Text → Text
  | [] => []
  | [word] => word.shown
  | [word, last] => word.shown ++ " or " ++ last.shown
  | word :: words => word.shown ++ ", " ++ choiceText words

def text : Flaw → Text
  | invalidJson => "Invalid JSON"
  | notUnicode => "Input should be a valid string, unable to parse raw data as a unicode string"
  | notRecord record => "Input should be a valid dictionary or instance of " ++ record
  | missing => "Field required"
  | notText => "Input should be a valid string"
  | notInteger => "Input should be a valid integer"
  | integerText => "Input should be a valid integer, unable to parse string as an integer"
  | integerFraction => "Input should be a valid integer, got a number with a fractional part"
  | integerSize => "Unable to parse input string as an integer, exceeded maximum size"
  | notFinite => "Input should be a finite number"
  | notNumber => "Input should be a valid number"
  | numberText => "Input should be a valid number, unable to parse string as a number"
  | notTruth => "Input should be a valid boolean"
  | truthText => "Input should be a valid boolean, unable to interpret input"
  | notMember words => "Input should be " ++ choiceText words
  | notList => "Input should be a valid list"
  | tooSmall least => "Input should be greater than or equal to " ++ Text.ofNat least
  | tooLarge greatest => "Input should be less than or equal to " ++ Text.ofNat greatest

end Flaw

/-- A flaw, where it is, and the part of the data that has it. -/
structure Problem where
  place : List Step
  flaw : Flaw
  given : Json

/-- A value, or the problems that kept it from being read. -/
inductive Checked (α : Type) where
  | valid (value : α)
  | faulty (problems : List Problem)

namespace Checked

variable {α β : Type}

def map (f : α → β) : Checked α → Checked β
  | valid a => valid (f a)
  | faulty problems => faulty problems

/-- A function and its argument, with the problems of both. -/
def apply : Checked (α → β) → Checked α → Checked β
  | valid f, valid a => valid (f a)
  | valid _, faulty problems => faulty problems
  | faulty problems, valid _ => faulty problems
  | faulty problems, faulty more => faulty (problems ++ more)

instance : Applicative Checked where
  pure := valid
  seq f x := apply f (x ())

def andThen (x : Checked α) (f : α → Checked β) : Checked β :=
  match x with
  | valid a => f a
  | faulty problems => faulty problems

/-- Moves the problems below a step. -/
def below (step : Step) : Checked α → Checked α
  | valid a => valid a
  | faulty problems => faulty (problems.map fun p => { p with place := step :: p.place })

def flaw (given : Json) (f : Flaw) : Checked α := faulty [⟨[], f, given⟩]

/-- The values of a list, with all problems. -/
def all : List (Checked α) → Checked (List α)
  | [] => valid []
  | x :: rest => apply (x.map List.cons) (all rest)

end Checked

/-- A refused record: its kind and what was wrong. -/
structure Refusal where
  record : Text
  problems : List Problem

def Refusal.headline (r : Refusal) : Text :=
  let errors : Text := if r.problems.length = 1 then " validation error for " else " validation errors for "
  Text.ofNat r.problems.length ++ errors ++ r.record

def Step.text : Step → Text
  | field name => name
  | item index => Text.ofNat index

/-- The text with its middle left out, if it takes more than fifty octets. -/
def Problem.excerpt (t : Text) : Text :=
  if t.octets.length ≤ 50 then t
  else t.takeOctets 25 ++ "..." ++ (Text.takeOctets t.reverse 24).reverse

/-- The lines of a report on a problem: where it is, what it is, and where the manual explains it. -/
def Problem.report (manual : Text) (p : Problem) : Text :=
  let place : Text :=
    if p.place.isEmpty then [] else Text.joined "." (p.place.map Step.text) ++ "\n"
  place ++ "  " ++ p.flaw.text ++ " [type=" ++ p.flaw.word ++ ", input_value="
    ++ Problem.excerpt p.given.shown ++ ", input_type=" ++ p.given.kindName
    ++ "]\n    For further information visit " ++ manual ++ p.flaw.word

/-- The report on a refused record; `manual` is the address of the manual that explains the flaws. -/
def Refusal.report (manual : Text) (r : Refusal) : Text :=
  Text.joined "\n" (r.headline :: r.problems.map (Problem.report manual))

def Refusal.fault (manual : Text) (r : Refusal) : Fault := ⟨"ValidationError", r.report manual⟩

namespace Text

/-- What stands between the number and the name in a headline. -/
def headlineMiddles : List Text := [" validation error for ", " validation errors for "]

/-- The rest after a headline at the start of the text. -/
def afterHeadline? (t : Text) : Option Text := do
  let rest := t.dropWhile CodePoint.isDecimalDigit
  if rest.length = t.length then none
  let middle ← headlineMiddles.find? (startsWith rest)
  let name := rest.drop middle.length
  let after := name.dropWhile CodePoint.isWordCharacter
  if after.length = name.length then none else some after

/-- The text up to the end of the first headline that is followed by another line. -/
def briefed : Text → Text
  | [] => []
  | c :: rest =>
    let after := (afterHeadline? (c :: rest)).getD []
    if after.head? = some (CodePoint.ofChar '\n') then
      (c :: rest).take (rest.length + 1 - after.length)
    else c :: briefed rest

end Text

def Checked.toExcept {α : Type} (record : Text) : Checked α → Except Refusal α
  | valid a => .ok a
  | faulty problems => .error ⟨record, problems⟩

namespace Record

variable {α : Type}

/-- The fields of an object that is to be a record of this name. -/
def fields (record : Text) (v : Json) (read : List (Text × Json) → Checked α) : Checked α :=
  match v with
  | .object fields => read fields
  | _ => .flaw v (.notRecord record)

def required (fields : List (Text × Json)) (name : Text) (read : Json → Checked α) : Checked α :=
  Checked.below (.field name) <|
    match Json.field? fields name with
    | some v => read v
    | none => .flaw (.object fields) .missing

/-- A field with a value for when it is absent. -/
def defaulted (fields : List (Text × Json)) (name : Text) (default : α) (read : Json → Checked α) :
    Checked α :=
  match Json.field? fields name with
  | some v => Checked.below (.field name) (read v)
  | none => .valid default

def nullable (read : Json → Checked α) : Json → Checked (Option α)
  | .null => .valid none
  | v => (read v).map some

def text : Json → Checked Text
  | .text t => .valid t
  | v => .flaw v .notText

def member (members : List α) (word : α → Text) (v : Json) : Checked α :=
  match v with
  | .text t =>
    if t.isWritable then
      match members.find? fun m => word m = t with
      | some m => .valid m
      | none => .flaw v (.notMember (members.map word))
    else .flaw v .notUnicode
  | _ => .flaw v (.notMember (members.map word))

def list (read : Json → Checked α) : Json → Checked (List α)
  | .array items => Checked.all (items.mapIdx fun i v => Checked.below (.item i) (read v))
  | v => .flaw v .notList

end Record

end Mender
