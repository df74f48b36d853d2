import Mender.Fault
import Mender.Text.Search
import Mender.Yaml.Mark

namespace Mender.Yaml

/-- The text is no YAML text or stands for nothing that is known, or a value in it cannot be. -/
inductive Misread where
  | malformed
  | fault (f : Fault)
deriving DecidableEq

/-- A part of a text that must be there. -/
def required {α : Type} (part : Option α) : Except Misread α :=
  match part with
  | some a => .ok a
  | none => .error .malformed

/-- A value that can be, or what is wrong with it. -/
def possible {α : Type} (value : Except Fault α) : Except Misread α := value.mapError .fault

structure Cursor where
  rest : Text
  line : Nat
  column : Nat
  index : Nat

namespace Cursor

def start (t : Text) : Cursor := ⟨t, 0, 0, 0⟩

def next? (c : Cursor) : Option CodePoint := c.rest.head?

def second? (c : Cursor) : Option CodePoint := (c.rest.drop 1).head?

/-- The place after the next code point. A byte order mark takes no column. -/
def step (c : Cursor) : Cursor :=
  match c.rest with
  | [] => c
  | d :: rest =>
    if isBreak d then ⟨rest, c.line + 1, 0, c.index + 1⟩
    else ⟨rest, c.line, if d.val = 0xFEFF then c.column else c.column + 1, c.index + 1⟩

def steps : (count : Nat) → Cursor → Cursor
  | 0, c => c
  | count + 1, c => steps count c.step

/-- The code points from here on that pass a test, and the place after them. -/
def span (c : Cursor) (p : CodePoint → Bool) : Text × Cursor :=
  let found := c.rest.takeWhile p
  (found, c.steps found.length)

def skip (c : Cursor) (p : CodePoint → Bool) : Cursor := (c.span p).2

/-- The place after a code point, if that is the next one. -/
def after? (c : Cursor) (d : CodePoint) : Option Cursor := if c.next? = some d then some c.step else none

def atBreak (c : Cursor) : Bool := c.next?.any isBreak

/-- The line end here as it is kept, a line feed or a separator; nothing if no line ends here. -/
def lineEnd (c : Cursor) : Text × Cursor :=
  match c.next? with
  | some d =>
    if !isBreak d then ([], c)
    else if d.val = 0x0A || d.val = 0x85 then ([CodePoint.ofChar '\n'], c.step)
    else ([d], c.step)
  | none => ([], c)

/-- A mark that starts or ends a document is next, wherever on the line. -/
def atDocumentMark (c : Cursor) : Bool :=
  (c.rest.startsWith "---" || c.rest.startsWith "...") && isGap (c.rest.drop 3).head?

/-- The place after blanks and a comment, if the line ends there. -/
def afterLine? (c : Cursor) : Option Cursor :=
  let c := c.skip isSpace
  let c := if c.next? = some (CodePoint.ofChar '#') then c.skip (!isBreak ·) else c
  if c.rest.isEmpty then some c else if c.atBreak then some c.lineEnd.2 else none

end Cursor

end Mender.Yaml
