import Mender.Generator.Basic
import Mender.Loose
import Mender.Ranking
import Mender.Text.EditDistance
import Mender.Text.Quoted
import Mender.Text.Lowercase

namespace Mender

/-- The names that are known, and how many suggestions of what likeness are made of them. -/
structure KnownNames where
  names : List Text
  threshold : Loose Amount
  limit : Loose (Option Int)

namespace KnownNames

def distinct (names : List Text) : List Text := firstByKey id [] names

def scored (names : List Text) (identifier : Text) : List (Text × Binary64) :=
  (names.filter (· ≠ identifier)).map fun name => (name, similarity identifier name)

/-- Names by falling likeness; equally like ones keep their order. -/
def byLikeness (scored : List (Text × Binary64)) : List (Text × Binary64) :=
  scored.mergeSort fun p q => q.2.rank ≤ p.2.rank

/-- The scored names above a threshold, which must be a number if there are any to compare. -/
def above (threshold : Loose Amount) (scored : List (Text × Binary64)) :
    Except Fault (List (Text × Binary64)) :=
  match threshold with
  | .fit a => .ok (scored.filter fun p => a.lt (.real p.2))
  | .odd v => if scored.isEmpty then .ok [] else .error (.notCompared ">" "float" v.kindName)

/-- The known names that are more like an identifier than the threshold, the most like first, up to
the limit. -/
def suggest (known : KnownNames) (identifier : Text) : Except Fault (List (Text × Binary64)) := do
  let kept ← above known.threshold (scored known.names identifier)
  match known.limit with
  | .fit none => pure (byLikeness kept)
  | .fit (some stop) => pure (takeTo (byLikeness kept) stop)
  | .odd _ => .error .notPlace

def triggers : List Text := ["not allowed", "not found", "unknown", "does not exist"]

def concerns (d : Defect) : Bool := triggers.any fun word => d.message.lowered.holds word

/-- How much of a line stands before a name: up to the given column if the name is there, and
otherwise up to its first occurrence. -/
def nameStart? (line name : Text) (column : Nat) : Option Nat :=
  if Text.startsWith (line.drop (column - 1)) name then some (column - 1) else line.find? name

def percentage (x : Binary64) : Text := (x.mul (Binary64.ofFraction false 100 1)).fixed 0 ++ "%"

def inQuotes (t : Text) : Text := "'" ++ t ++ "'"

/-- The fix that puts a known name in the place of an identifier. A likeness above one would be
refused. -/
def fixOf? (p : Position) (start : Nat) (identifier : Text) (suggestion : Text × Binary64) :
    Except Fault Fix :=
  let (name, score) := suggestion
  match Confidence.ofBinary64? score with
  | none => .error ⟨"ValidationError", "1 validation error for CandidateFix"⟩
  | some confidence =>
    .ok
      { name := none
        title := "Replace " ++ inQuotes identifier ++ " with " ++ inQuotes name
        description := inQuotes name ++ " is a known name " ++ percentage score ++ " similar to "
          ++ inQuotes identifier
        edits := [⟨.replace, ⟨p.line, start + 1, p.one_le_line, Position.one_le_succ _⟩,
          some ⟨p.line, start + identifier.length + 1, p.one_le_line, Position.one_le_succ _⟩, some name⟩]
        confidence := confidence
        strategy := .knownName }

/-- What comes of a defect: fixes, or an identifier that is not on the line it should be on. -/
inductive Finding where
  | fixes (fs : List Fix)
  | notOnLine (identifier : Text) (line : Nat)

def find (known : KnownNames) (d : Defect) (t : Text) : Except Fault Finding :=
  match d.position with
  | none => .ok (.fixes [])
  | some p =>
    if !concerns d then .ok (.fixes [])
    else
      match d.message.quotedName?, t.lines[p.line - 1]? with
      | some identifier, some line =>
        match nameStart? line identifier p.column with
        | none => .ok (.notOnLine identifier p.line)
        | some start =>
          do
            let found ← known.suggest identifier
            (found.mapM (fixOf? p start identifier)).map .fixes
      | _, _ => .ok (.fixes [])

end KnownNames

/-- The generator of known names; without known names it proposes nothing. -/
def knownNamesGenerator (ω : Type) (known : Option KnownNames) : Generator ω where
  name := Strategy.knownName.word
  propose d t := do
    match known with
    | none => pure (.offers [])
    | some known =>
      match known.find d t with
      | .error f => pure (.raised f)
      | .ok (.fixes fs) => pure (.ofFixes fs)
      | .ok (.notOnLine identifier line) =>
        Desk.write .debug .knownNames
          ("Identifier " ++ KnownNames.inQuotes identifier ++ " not found on line "
            ++ Text.ofNat line)
        pure (.offers [])

end Mender
