import Mender.Oracle.Basic
import Mender.Text.Lines
import Mender.Text.Blank

namespace Mender

/-- What a line is tested for. -/
inductive LineTest where
  | nonblank
  | holds
  | equals
  | startsWith
  | endsWith
deriving DecidableEq

def LineTest.passes (test : LineTest) (needle line : Text) : Bool :=
  match test with
  | nonblank => !line.trim.isEmpty
  | holds => line.holds needle
  | equals => line = needle
  | startsWith => line.startsWith needle
  | endsWith => line.endsWith needle

/-- Where on its line a defect is reported. -/
inductive LinePlace where
  | nowhere
  | column (n : Int)
  | occurrence

/-- A test of lines and the defect that is reported for each line that passes. In the message `$L`
stands for the line without the blanks around it, and `$D` for the number of lines that pass. -/
structure LineRule where
  test : LineTest
  needle : Text
  message : Text
  severity : Json
  rule : Json
  fixable : Json
  place : LinePlace

namespace LineRule

def hits (r : LineRule) (t : Text) : List (Text × Nat) :=
  (t.lines.zipIdx 1).filter fun p => r.test.passes r.needle p.1

/-- The message for a line, one of `count`. -/
def messageFor (r : LineRule) (line : Text) (count : Nat) : Text :=
  (r.message.replaceAll "$L" line.trim).replaceAll "$D" (Text.ofNat count)

def positionFor (r : LineRule) (line : Text) (number : Nat) : Json :=
  let spot (column : Int) : Json := .object [("line", .int number), ("column", .int column)]
  match r.place with
  | .nowhere => .null
  | .column n => spot n
  | .occurrence =>
    match line.find? r.needle with
    | some start => spot (start + 1)
    | none => spot 0

def report (r : LineRule) (count : Nat) (hit : Text × Nat) : Json :=
  .object
    [("message", .text (r.messageFor hit.1 count)), ("severity", r.severity),
      ("position", r.positionFor hit.1 hit.2), ("rule", r.rule), ("fixable", r.fixable)]

def oracle {ω : Type} (r : LineRule) : Oracle ω := fun t w =>
  (.data (.array ((r.hits t).map (r.report (r.hits t).length))), w)

end LineRule

end Mender
