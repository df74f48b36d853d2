import Mender.Defect
import Mender.Text.Lines

namespace Mender

inductive EditKind where
  | insert
  | delete
  | replace
deriving DecidableEq

namespace EditKind

def word : EditKind → Text
  | insert => "insert"
  | delete => "delete"
  | replace => "replace"

def ofWord? (t : Text) : Option EditKind := [insert, delete, replace].find? (·.word = t)

end EditKind

/-- A line and a column that need not exist in any text. -/
structure Place where
  line : Int
  column : Int
deriving DecidableEq

def Position.place (p : Position) : Place := ⟨p.line, p.column⟩

/-- One edit. The stop is exclusive. Without a stop a deletion removes the whole line of the start
and a replacement gives that line new content; without a text the text is empty. -/
structure Edit where
  kind : EditKind
  start : Position
  stop : Option Position
  text : Option Text
deriving DecidableEq

/-- An edit whose parts nobody has checked. -/
structure LooseEdit where
  kind : Text
  start : Place
  stop : Option Place
  text : Option Text

inductive EditError where
  | lineOutside (line : Int) (count : Nat)
  | stopBeforeStart (stop start : Place)
  | unknownKind (kind : Text)
deriving DecidableEq

namespace EditError

def message : EditError → Text
  | lineOutside line count =>
    "Line " ++ Text.ofInt line ++ " outside buffer of " ++ Text.ofNat count ++ " lines"
  | stopBeforeStart stop start =>
    "Edit end " ++ Text.ofInt stop.line ++ ":" ++ Text.ofInt stop.column ++ " precedes start "
      ++ Text.ofInt start.line ++ ":" ++ Text.ofInt start.column
  | unknownKind kind => "Unknown edit kind: " ++ kind

end EditError

namespace Edit

/-- The index of a line among `lines`, which must be less than `limit`. -/
def lineIndex (lines : List Text) (line : Int) (limit : Nat) : Except EditError Nat :=
  if line < 1 ∨ limit < line then .error (.lineOutside line lines.length)
  else .ok (line.toNat - 1)

/-- How many code points of a line stand before a column. -/
def columnOffset (line : Text) (column : Int) : Nat := min (column - 1).toNat line.length

/-- The line at an index; an index from `lineIndex` always has one. -/
def lineAt (lines : List Text) (index : Nat) : Text := lines.getD index []

/-- Puts what `content` holds in the place of the lines from `first` to `last`. -/
def putLines (lines : List Text) (first last : Nat) (content : Text) : List Text :=
  lines.take first ++ content.lines ++ lines.drop (last + 1)

/-- Puts a text in the place of what lies between two places. -/
def splice (lines : List Text) (start stop : Place) (text : Text) : Except EditError (List Text) := do
  let first ← lineIndex lines start.line lines.length
  let last ← lineIndex lines stop.line lines.length
  let head := columnOffset (lineAt lines first) start.column
  let tail := columnOffset (lineAt lines last) stop.column
  if last < first ∨ (last = first ∧ tail < head) then throw (.stopBeforeStart stop start)
  pure (putLines lines first last
    ((lineAt lines first).take head ++ text ++ (lineAt lines last).drop tail))

/-- Puts a text before a place. One line past the end appends the text as new lines. -/
def insertAt (lines : List Text) (start : Place) (text : Text) : Except EditError (List Text) := do
  let index ← lineIndex lines start.line (lines.length + 1)
  if index = lines.length then pure (lines ++ text.lines)
  else
    let line := lineAt lines index
    let head := columnOffset line start.column
    pure (putLines lines index index (line.take head ++ text ++ line.drop head))

/-- Removes a line. The only line of a text becomes empty instead. -/
def removeLine (lines : List Text) (line : Int) : Except EditError (List Text) := do
  let index ← lineIndex lines line lines.length
  if lines.length = 1 then pure [[]] else pure (lines.eraseIdx index)

def replaceLine (lines : List Text) (line : Int) (text : Text) : Except EditError (List Text) := do
  let index ← lineIndex lines line lines.length
  pure (putLines lines index index text)

def applyTo (lines : List Text) (kind : EditKind) (start : Place) (stop : Option Place)
    (text : Option Text) : Except EditError (List Text) :=
  match kind, stop with
  | .insert, _ => insertAt lines start (text.getD [])
  | .delete, some stop => splice lines start stop []
  | .delete, none => removeLine lines start.line
  | .replace, some stop => splice lines start stop (text.getD [])
  | .replace, none => replaceLine lines start.line (text.getD [])

def apply (lines : List Text) (e : Edit) : Except EditError (List Text) :=
  applyTo lines e.kind e.start.place (e.stop.map Position.place) e.text

end Edit

def LooseEdit.apply (lines : List Text) (e : LooseEdit) : Except EditError (List Text) :=
  match EditKind.ofWord? e.kind with
  | some kind => Edit.applyTo lines kind e.start e.stop e.text
  | none => .error (.unknownKind e.kind)

def applyEdits (t : Text) (edits : List Edit) : Except EditError Text :=
  (edits.foldlM Edit.apply t.lines).map Text.ofLines

def applyLooseEdits (t : Text) (edits : List LooseEdit) : Except EditError Text :=
  (edits.foldlM LooseEdit.apply t.lines).map Text.ofLines

end Mender
