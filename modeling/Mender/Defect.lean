import Mender.Text.CodePoint

namespace Mender

/-- A place in a text by line and column. Both count from one. -/
structure Position where
  line : Nat
  column : Nat
  one_le_line : 1 ≤ line
  one_le_column : 1 ≤ column
deriving DecidableEq

namespace Position

theorem one_le_one : 1 ≤ 1 := Nat.le_refl 1

theorem one_le_succ (n : Nat) : 1 ≤ n + 1 := Nat.le_add_left 1 n

def lineStart (p : Position) : Position := ⟨p.line, 1, p.one_le_line, one_le_one⟩

def textStart : Position := ⟨1, 1, one_le_one, one_le_one⟩

end Position

inductive Severity where
  | error
  | warning
  | info
deriving DecidableEq

namespace Severity

def all : List Severity := [error, warning, info]

def word : Severity → Text
  | error => "error"
  | warning => "warning"
  | info => "info"

/-- Errors come before warnings and warnings before the rest. -/
def rank : Severity → Nat
  | error => 0
  | warning => 1
  | info => 2

end Severity

/-- One problem of a text. Two defects are the same when all their parts are. -/
structure Defect where
  message : Text
  severity : Severity
  position : Option Position
  rule : Option Text
  fixable : Option Bool
deriving DecidableEq

namespace Defect

def line (d : Defect) : Option Nat := d.position.map Position.line

def column (d : Defect) : Option Nat := d.position.map Position.column

/-- What stays of a defect when earlier lines are edited: everything but where it is and whether it
is said to be fixable. -/
def identity (d : Defect) : Option Text × Text × Severity := (d.rule, d.message, d.severity)

/-- Defects by severity; within a severity they keep their order. -/
def prioritize (defects : List Defect) : List Defect :=
  defects.mergeSort fun a b => a.severity.rank ≤ b.severity.rank

end Defect

end Mender
