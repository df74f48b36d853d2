import Mender.Source.Names
import Mender.Oracle.Basic
import Mender.Text.Lowercase

namespace Mender.Source

/-- What a parser makes of a text. -/
inductive Parse where
  | tree (t : Tree)
  | syntaxError (message : Option Text) (line column : Option Int)
  | raised (f : Fault)

/-- What a parser makes of a text that raises a fault of a family, with a text of its own or without.
A syntax error is the answer of the parser; anything else is a failure. -/
def Parse.ofRaised (family : Text) (said : Option Text) : Parse :=
  let f := Fault.ofParts family said
  if f.isA "SyntaxError" then .syntaxError said none none else .raised f

/-- The position of a syntax error; what is missing or below one counts as one. -/
def errorPosition (line column : Option Int) : Position :=
  ⟨max 1 (line.getD 1).toNat, max 1 (column.getD 1).toNat, Nat.le_max_left .., Nat.le_max_left ..⟩

/-- The rule that a syntax error belongs to, told from its message. -/
def syntaxRule (message : Text) : Text :=
  if message.lowered.holds "expected ':'" then "missing-colon"
  else if message.lowered.holds "was never closed" || message.lowered.holds "unexpected eof" then
    "unclosed-bracket"
  else "syntax-error"

def syntaxDefect (message : Option Text) (line column : Option Int) : Defect :=
  let message : Text :=
    match message with
    | none | some [] => "invalid syntax"
    | some m => m
  let rule := syntaxRule message
  ⟨message, .error, some (errorPosition line column), some rule,
    some (rule != ("syntax-error" : Text))⟩

/-- The defect of blanks at the end of a line, at the first of them. -/
def trailingDefect (number : Nat) (line : Text) : Defect :=
  ⟨"Trailing whitespace", .info,
    some ⟨number + 1, line.trimRight.length + 1, Position.one_le_succ _, Position.one_le_succ _⟩,
    some "trailing-whitespace", some true⟩

def trailingBlanks (t : Text) : List Defect :=
  (t.lines.zipIdx.filter fun p => p.1.trimRight ≠ p.1).map fun p => trailingDefect p.2 p.1

/-- Defects by line and column; those at the same place keep their order. -/
def byPlace (defects : List Defect) : List Defect :=
  defects.mergeSort fun a b =>
    let p := (a.line.getD 0, a.column.getD 0)
    let q := (b.line.getD 0, b.column.getD 0)
    p.1 < q.1 || (p.1 = q.1 && p.2 ≤ q.2)

def Parse.defects : Parse → Except Fault (List Defect)
  | tree t => .ok (unusedImports t ++ unboundNames t)
  | syntaxError message line column => .ok [syntaxDefect message line column]
  | raised f => .error f

def check (blanks : Bool) (parse : Parse) (t : Text) : Except Fault (List Defect) :=
  parse.defects.map fun found => byPlace (found ++ if blanks then trailingBlanks t else [])

def oracle {ω : Type} (blanks : Bool) (parse : Text → Parse) : Oracle ω := fun t w =>
  match check blanks (parse t) t with
  | .ok found => (.defects found, w)
  | .error f => (.trouble (.raised f), w)

end Mender.Source
