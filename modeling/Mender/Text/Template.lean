import Mender.Text.FieldFormat
import Mender.Text.Shown

namespace Mender

/-- Why a template cannot be filled in. -/
inductive TemplateError where
  | singleOpening
  | singleClosing
  | fieldNotClosed
  | openingInField
  | conversionMissing
  | conversionNotFollowed
  | formatNotClosed
  | tooDeep
  | emptyAttribute
  | itemNotClosed
  | strayAfterItem
  | unknownConversion (c : CodePoint)
  | format (e : FormatError)
  | unknownField (name : Text)
  | noPosition (index : Nat)
  | noItem
  | notIndexed
  | noAttribute (owner name : Text)
  | noParts
  | noLayout
deriving DecidableEq

def TemplateError.message : TemplateError → Text
  | singleOpening => "Single '\x7b' encountered in format string"
  | singleClosing => "Single '\x7d' encountered in format string"
  | fieldNotClosed => "expected '\x7d' before end of string"
  | openingInField => "unexpected '\x7b' in field name"
  | conversionMissing => "end of string while looking for conversion specifier"
  | conversionNotFollowed => "expected ':' after conversion specifier"
  | formatNotClosed => "unmatched '\x7b' in format spec"
  | tooDeep => "Max string recursion exceeded"
  | emptyAttribute => "Empty attribute in format string"
  | itemNotClosed => "Missing ']' in format string"
  | strayAfterItem => "Only '.' or '[' may follow ']' in format field specifier"
  | unknownConversion c => "Unknown conversion specifier " ++ FormatError.codeText 127 c
  | format e => e.message
  | unknownField name => name.shown
  | noPosition index =>
    "Replacement index " ++ Text.ofNat index ++ " out of range for positional args tuple"
  | noItem => "string index out of range"
  | notIndexed => "string indices must be integers, not 'str'"
  | noAttribute owner name => owner ++ " has no attribute '" ++ name ++ "'"
  | noParts => "type 'str' is not subscriptable"
  | noLayout => "unsupported format string passed to type.__format__"

namespace Template

def openBrace : CodePoint := '\x7b'

def closeBrace : CodePoint := '\x7d'

def openBracket : CodePoint := '['

def closeBracket : CodePoint := ']'

def point : CodePoint := '.'

/-- What comes next in a template: a piece of text as it is, or a field with the way in which its
value is spelled and the format that lays it out. -/
inductive Part where
  | plain (t : Text)
  | field (name : Text) (conversion : Option CodePoint) (format : Text)
deriving DecidableEq

/-- The name at the start of a field, up to the mark that ends it, which is the first of the rest. In
square brackets no mark counts. -/
def readName (inBrackets : Bool) : Text → Except TemplateError (Text × Text)
  | [] => .ok ([], [])
  | c :: rest =>
    if inBrackets then do
      let (name, rest) ← readName (c != closeBracket) rest
      pure (c :: name, rest)
    else if c = openBrace then .error .openingInField
    else if c = closeBrace || c = ':' || c = '!' then .ok ([], c :: rest)
    else do
      let (name, rest) ← readName (c = openBracket) rest
      pure (c :: name, rest)

/-- The format at the start of a text, up to the brace that closes its field, and the rest; `inner`
counts the braces to be closed before. -/
def readFormat (inner : Nat) : Text → Except TemplateError (Text × Text)
  | [] => .error .formatNotClosed
  | c :: rest =>
    if c = closeBrace && inner = 0 then .ok ([], rest)
    else do
      let inner := if c = openBrace then inner + 1 else if c = closeBrace then inner - 1 else inner
      let (format, rest) ← readFormat inner rest
      pure (c :: format, rest)

/-- The field after an opening brace, and the rest after its closing brace. -/
def readField (t : Text) : Except TemplateError (Part × Text) := do
  let (name, rest) ← readName false t
  match rest with
  | [] => .error .fieldNotClosed
  | mark :: rest =>
    if mark = closeBrace then .ok (.field name none [], rest)
    else if mark = ':' then
      let (format, rest) ← readFormat 0 rest
      pure (.field name none format, rest)
    else
      match rest with
      | [] => .error .conversionMissing
      | [_] => .error .formatNotClosed
      | conversion :: d :: rest =>
        if d = closeBrace then .ok (.field name (some conversion) [], rest)
        else if d = ':' then
          let (format, rest) ← readFormat 0 rest
          pure (.field name (some conversion) format, rest)
        else .error .conversionNotFollowed

/-- The part at the start of a template that is not empty, and the rest. -/
def readPart (t : Text) : Except TemplateError (Part × Text) :=
  let (plain, rest) := t.span fun (c : CodePoint) => c != openBrace && c != closeBrace
  match plain, rest with
  | [], c :: d :: more =>
    if c = d then .ok (.plain [c], more)
    else if c = closeBrace then .error .singleClosing
    else readField (d :: more)
  | [], [c] => .error (if c = closeBrace then .singleClosing else .singleOpening)
  | _, _ => .ok (.plain plain, rest)

/-- What a field may stand for: a text, or the kind that all texts are of. -/
inductive Value where
  | text (t : Text)
  | kind
deriving DecidableEq

namespace Value

def plain : Value → Text
  | text t => t
  | kind => "<class 'str'>"

/-- An attribute of a value. Of the attributes of a text only its kind is followed. The others, its methods and its
manual, are taken to be absent, for what they show changes from place to place. -/
def member (name : Text) : Value → Except TemplateError Value
  | text _ => if name = "__class__" then .ok kind else .error (.noAttribute "'str' object" name)
  | kind =>
    if name = "__name__" || name = "__qualname__" then .ok (text "str")
    else if name = "__module__" then .ok (text "builtins")
    else .error (.noAttribute "type object 'str'" name)

/-- An item of a value: the code point at an index. -/
def item (index : Option Nat) : Value → Except TemplateError Value
  | kind => .error .noParts
  | text t =>
    match index with
    | none => .error .notIndexed
    | some i =>
      match t[i]? with
      | some c => .ok (text [c])
      | none => .error .noItem

/-- A code point of a shown text by its number, if it is not ASCII. -/
def asciiShown (c : CodePoint) : Text :=
  if c.val < 0x80 then [c]
  else if c.val ≤ 0xFF then "\\x" ++ hexText c.val 2
  else if c.val ≤ 0xFFFF then "\\u" ++ hexText c.val 4
  else "\\U" ++ hexText c.val 8

/-- The value as a conversion spells it: in plain text, in quotes, or in quotes and ASCII only. -/
def converted (v : Value) : Option CodePoint → Except TemplateError Value
  | none => .ok v
  | some c =>
    let quoted : Text :=
      match v with
      | text t => t.shown
      | kind => v.plain
    if c = 's' then .ok (text v.plain)
    else if c = 'r' then .ok (text quoted)
    else if c = 'a' then .ok (text (quoted.flatMap asciiShown))
    else .error (.unknownConversion c)

def laidOut (v : Value) (format : Text) : Except TemplateError Text :=
  match v with
  | text t => (FieldFormat.apply format t).mapError .format
  | kind => if format.isEmpty then .ok v.plain else .error .noLayout

end Value

/-- A name or the number of an item. -/
def index? (t : Text) : Except TemplateError (Option Nat) :=
  (FieldFormat.wholeCount? t).mapError .format

/-- Follows the attributes and items that a field goes on with; `fuel` bounds their number. -/
def follow : (fuel : Nat) → Text → Value → Except TemplateError Value
  | _, [], v => .ok v
  | 0, _ :: _, v => .ok v
  | fuel + 1, c :: rest, v =>
    if c = point then do
      let (name, rest) := rest.span fun (d : CodePoint) => d != point && d != openBracket
      if name.isEmpty then .error .emptyAttribute
      else follow fuel rest (← v.member name)
    else if c = openBracket then
      match rest.span fun (d : CodePoint) => d != closeBracket with
      | (_, []) => .error .itemNotClosed
      | (name, _ :: rest) => do
        let index ← index? name
        if name.isEmpty then .error .emptyAttribute
        else follow fuel rest (← v.item index)
    else .error .strayAfterItem

/-- The value of a field. Names that are numbers, and the empty name, ask for values by position,
and there are none. -/
def lookUp (values : List (Text × Text)) (name : Text) : Except TemplateError Value := do
  let (first, rest) := name.span fun (c : CodePoint) => c != point && c != openBracket
  let index ← index? first
  if first.isEmpty then .error (.noPosition 0)
  else
    match index with
    | some index => .error (.noPosition index)
    | none =>
      match values.find? (·.1 = first) with
      | none => .error (.unknownField first)
      | some (_, value) => follow rest.length rest (.text value)

/-- Fills in a template from the left; `fuel` bounds the number of parts, and `inner` fills in what
stands in formats. -/
def fillFrom (inner : Text → Except TemplateError Text) (values : List (Text × Text)) :
    (fuel : Nat) → Text → Except TemplateError Text
  | _, [] => .ok []
  | 0, _ :: _ => .ok []
  | fuel + 1, c :: t => do
    let (part, rest) ← readPart (c :: t)
    let shown ←
      match part with
      | .plain t => .ok t
      | .field name conversion format => do
        let value ← (← lookUp values name).converted conversion
        let format ← if format.contains openBrace then inner format else .ok format
        value.laidOut format
    pure (shown ++ (← fillFrom inner values fuel rest))

/-- The template with its fields filled in. A format may hold fields, but their formats may not. -/
def fill (template : Text) (values : List (Text × Text)) : Except TemplateError Text :=
  let tooDeep (_ : Text) : Except TemplateError Text := .error .tooDeep
  let format (t : Text) : Except TemplateError Text := fillFrom tooDeep values t.length t
  fillFrom format values template.length template

end Template

end Mender
