import Mender.Record.Writing
import Mender.Json.Writer
import Mender.Fault

namespace Mender

/-- The items whose key has not occurred before, neither in the list nor in `seen`. -/
def firstByKey {α κ : Type} [DecidableEq κ] (key : α → κ) (seen : List κ) : List α → List α
  | [] => []
  | item :: rest =>
    if key item ∈ seen then firstByKey key seen rest
    else item :: firstByKey key (key item :: seen) rest

/-- The edits of a fix, each as JSON text. -/
def Fix.signature (f : Fix) : List Text := f.edits.map fun e => e.toJson.compact

/-- Fixes with edits, the surest first; equally sure ones keep their order. -/
def bySureness (candidates : List Fix) : List Fix :=
  (candidates.filter fun f => !f.edits.isEmpty).mergeSort fun f g => f.confidence.atLeast g.confidence

def rankFixes (candidates : List Fix) : List Fix :=
  firstByKey Fix.signature [] (bySureness candidates)

/-- Why a text cannot be written out: the first run of surrogates in it. -/
def Text.writingFault? (t : Text) : Option Fault :=
  let before := t.takeWhile fun c => !c.isSurrogate
  let run := (t.drop before.length).takeWhile CodePoint.isSurrogate
  let said (what : Text) : Fault :=
    ⟨"PydanticSerializationError",
      "Error serializing to JSON: UnicodeEncodeError: 'utf-8' codec can't encode character" ++ what
        ++ ": surrogates not allowed"⟩
  match run with
  | [] => none
  | [c] => some (said (" '\\u" ++ hexText c.val 4 ++ "' in position " ++ Text.ofNat before.length))
  | _ =>
    some (said ("s in position " ++ Text.ofNat before.length ++ "-"
      ++ Text.ofNat (before.length + run.length - 1)))

def Fix.writingFault? (f : Fix) : Option Fault :=
  f.edits.findSome? fun e => e.text.bind Text.writingFault?

/-- The ranked fixes, unless the edits of a candidate cannot be written out. -/
def rankFixes? (candidates : List Fix) : Except Fault (List Fix) :=
  match (bySureness candidates).findSome? Fix.writingFault? with
  | some fault => .error fault
  | none => .ok (rankFixes candidates)

end Mender
