import Mender.Yaml.Cursor

namespace Mender.Yaml

/-- A line end and the line ends after it, folded. -/
def folded (first more : Text) : Text :=
  (if first ≠ [CodePoint.ofChar '\n'] then first
    else if more.isEmpty then [CodePoint.ofChar ' '] else []) ++ more

/-! Plain scalars -/

/-- A plain scalar ends before this text. Inside brackets it also ends at commas and brackets. -/
def plainStops (bracketed : Bool) : Text → Bool
  | [] => true
  | c :: rest =>
    let bracket (d : CodePoint) : Bool := d == '[' || d == ']' || d == '\x7b' || d == '\x7d' || d == ','
    isGap (some c)
      || (c == ':' && (isGap rest.head? || (bracketed && rest.head?.any bracket)))
      || (bracketed && (bracket c || c == '?'))

/-- The part of a plain scalar up to the next blank or its end. -/
def plainPart (bracketed : Bool) : Text → Text
  | [] => []
  | c :: rest => if plainStops bracketed (c :: rest) then [] else c :: plainPart bracketed rest

/-- Line ends and the blanks around them, up to other text. The last part says that a mark of a
document came first. -/
def plainBreaks : (fuel : Nat) → Cursor → Text × Cursor × Bool
  | 0, c => ([], c, false)
  | fuel + 1, c =>
    let c := c.skip isSpace
    if c.atBreak then
      let (first, c) := c.lineEnd
      if c.atDocumentMark then (first, c, true)
      else
        let (more, c, marked) := plainBreaks fuel c
        (first ++ more, c, marked)
    else ([], c, false)

/-- What stands between two parts of a plain scalar, and whether a line ended there. -/
def plainGap (c : Cursor) : Text × Cursor × Bool :=
  let (blanks, c) := c.span isSpace
  if c.atBreak then
    let (first, c) := c.lineEnd
    if c.atDocumentMark then ([], c, true)
    else
      let (more, c, marked) := plainBreaks (c.rest.length + 1) c
      (if marked then [] else folded first more, c, true)
  else (blanks, c, false)

/-- A plain scalar from its next part on, after some text and a gap. Its lines are at least `indent`
columns in. The last part says that a line ended after it. -/
def plainFrom (indent : Int) (bracketed : Bool) :
    (fuel : Nat) → Cursor → (before gap : Text) → (ended : Bool) → Text × Cursor × Bool
  | 0, c, before, _, ended => (before, c, ended)
  | fuel + 1, c, before, gap, ended =>
    let part := plainPart bracketed c.rest
    if c.next? = some (CodePoint.ofChar '#') || part.isEmpty then (before, c, ended)
    else
      let (next, after, broke) := plainGap (c.steps part.length)
      let text := before ++ gap ++ part
      if next.isEmpty || (!bracketed && (after.column : Int) < indent) then (text, after, broke)
      else plainFrom indent bracketed fuel after text next broke

def plainScalar (indent : Int) (bracketed : Bool) (c : Cursor) : Text × Cursor × Bool :=
  plainFrom indent bracketed (c.rest.length + 1) c [] [] false

/-! Quoted scalars -/

/-- Line ends with the blanks before and after each; a mark of a document may not be among them. -/
def quotedBreaks : (fuel : Nat) → Cursor → Option (Text × Cursor)
  | 0, _ => none
  | fuel + 1, c =>
    if c.atDocumentMark then none
    else
      let c := c.skip isSpaceOrTab
      if c.atBreak then do
        let (first, c) := c.lineEnd
        let (more, c) ← quotedBreaks fuel c
        pure (first ++ more, c)
      else some ([], c)

/-- Blanks inside quotes; they do not count where a line ends. -/
def quotedGap (c : Cursor) : Option (Text × Cursor) :=
  let (blanks, c) := c.span isSpaceOrTab
  if c.atBreak then do
    let (first, c) := c.lineEnd
    let (more, c) ← quotedBreaks (c.rest.length + 1) c
    pure (folded first more, c)
  else some (blanks, c)

def escapes : List (Char × Nat) :=
  [('0', 0), ('a', 7), ('b', 8), ('t', 9), ('\t', 9), ('n', 0x0A), ('v', 0x0B), ('f', 0x0C),
    ('r', 0x0D), ('e', 0x1B), (' ', 0x20), ('"', 0x22), ('\\', 0x5C), ('/', 0x2F), ('N', 0x85),
    ('_', 0xA0), ('L', 0x2028), ('P', 0x2029)]

/-- How many digits follow a letter that gives a code point by number. -/
def escapeLengths : List (Char × Nat) := [('x', 2), ('u', 4), ('U', 8)]

def hexValue? (digits : Text) : Option Nat :=
  digits.foldlM (fun n c => (c.digitValue?.filter (· < 16)).map fun d => n * 16 + d) 0

/-- The code point with a number that an escape gives, which may be beyond all code points. -/
def numbered (n : Nat) : Except Misread CodePoint :=
  match CodePoint.ofNat? n with
  | some c => .ok c
  | none =>
    if n < 0x80000000 then .error (.fault ⟨"ValueError", "chr() arg not in range(0x110000)"⟩)
    else .error (.fault ⟨"OverflowError", "Python int too large to convert to C int"⟩)

/-- An escape, from after its backslash on. -/
def escaped (c : Cursor) : Except Misread (Text × Cursor) := do
  let letter ← required c.next?
  match escapes.find? fun p => CodePoint.ofChar p.1 = letter with
  | some (_, n) => pure ((CodePoint.ofNat? n).toList, c.step)
  | none =>
    match escapeLengths.find? fun p => CodePoint.ofChar p.1 = letter with
    | some (_, length) =>
      let digits := (c.rest.drop 1).take length
      if digits.length < length then .error .malformed
      else
        let d ← numbered (← required (hexValue? digits))
        pure ([d], c.steps (length + 1))
    | none =>
      if isBreak letter then required (quotedBreaks (c.rest.length + 1) c.lineEnd.2)
      else .error .malformed

/-- A quoted scalar from after some of its text on, up to its closing quote. -/
def quotedFrom (double : Bool) :
    (fuel : Nat) → Cursor → (before : Text) → Except Misread (Text × Cursor)
  | 0, _, _ => .error .malformed
  | fuel + 1, c, before => do
    let d ← required c.next?
    if isGap (some d) then
      let (gap, c) ← required (quotedGap c)
      quotedFrom double fuel c (before ++ gap)
    else if double && d == '"' then pure (before, c.step)
    else if !double && d == '\'' then
      if c.second? = some d then quotedFrom double fuel (c.steps 2) (before ++ [d])
      else pure (before, c.step)
    else if double && d == '\\' then
      let (text, c) ← escaped c.step
      quotedFrom double fuel c (before ++ text)
    else quotedFrom double fuel c.step (before ++ [d])

def quotedScalar (double : Bool) (c : Cursor) : Except Misread (Text × Cursor) :=
  quotedFrom double (c.rest.length + 1) c.step []

/-! Block scalars -/

/-- What happens to the line ends at the end of a block. -/
inductive Chomp where
  | strip
  | clip
  | keep
deriving DecidableEq

/-- The sign for what happens at the end. -/
def chompOf? (c : Option CodePoint) : Option Chomp :=
  if c = some (CodePoint.ofChar '+') then some .keep
  else if c = some (CodePoint.ofChar '-') then some .strip
  else none

/-- A digit for how much deeper a block is; it is not zero. -/
def deeperOf? (c : Option CodePoint) : Option Nat := do
  let d ← c
  if d.isDigit then some (d.val - 48) else none

/-- The signs after the mark of a block, in either order. -/
def blockHead? (c : Cursor) : Option (Chomp × Option Nat × Cursor) := do
  let (chomp, deeper, c) :=
    match chompOf? c.next? with
    | some chomp =>
      match deeperOf? c.second? with
      | some n => (chomp, some n, c.steps 2)
      | none => (chomp, none, c.step)
    | none =>
      match deeperOf? c.next? with
      | some n =>
        match chompOf? c.second? with
        | some chomp => (chomp, some n, c.steps 2)
        | none => (Chomp.clip, some n, c.step)
      | none => (Chomp.clip, none, c)
  if deeper = some 0 || !isGapButTab c.next? then none else pure (chomp, deeper, c)

/-- Blank lines at the start of a block, and the deepest column of the blanks on them and before the
text. -/
def blockStart : (fuel : Nat) → Cursor → (deepest : Nat) → Text × Nat × Cursor
  | 0, c, deepest => ([], deepest, c)
  | fuel + 1, c, deepest =>
    let c := c.skip isSpace
    let deepest := max deepest c.column
    if c.atBreak then
      let (first, c) := c.lineEnd
      let (more, deepest, c) := blockStart fuel c deepest
      (first ++ more, deepest, c)
    else ([], deepest, c)

/-- The place after blanks, up to a column. -/
def toColumn (indent : Nat) (c : Cursor) : Cursor :=
  c.steps (min (indent - c.column) (c.rest.takeWhile isSpace).length)

/-- Blank lines between the lines of a block. -/
def blockBreaks (indent : Nat) : (fuel : Nat) → Cursor → Text × Cursor
  | 0, c => ([], c)
  | fuel + 1, c =>
    let c := toColumn indent c
    if c.atBreak then
      let (first, c) := c.lineEnd
      let (more, c) := blockBreaks indent fuel c
      (first ++ more, c)
    else ([], c)

/-- The lines of a block from the next one on, where `breaks` stand before it. The result is the text,
the last line end, and the line ends after it. -/
def blockLines (indent : Nat) (fold : Bool) :
    (fuel : Nat) → Cursor → (breaks : Text) → Text × Text × Text × Cursor
  | 0, c, breaks => ([], [], breaks, c)
  | fuel + 1, c, breaks =>
    if c.column ≠ indent || c.rest.isEmpty then ([], [], breaks, c)
    else
      let flush (c : Cursor) : Bool := !c.next?.any isSpaceOrTab
      let (line, after) := c.span (!isBreak ·)
      let (lineEnd, after) := after.lineEnd
      let (next, after) := blockBreaks indent (after.rest.length + 1) after
      if after.column ≠ indent || after.rest.isEmpty then (breaks ++ line, lineEnd, next, after)
      else
        let joint : Text :=
          if fold && lineEnd = [CodePoint.ofChar '\n'] && flush c && flush after then
            if next.isEmpty then [CodePoint.ofChar ' '] else []
          else lineEnd
        let (text, last, trailing, after) := blockLines indent fold fuel after next
        (breaks ++ line ++ joint ++ text, last, trailing, after)

/-- A block scalar from its mark on, inside of a block with the given indentation. -/
def blockScalar? (outer : Int) (fold : Bool) (c : Cursor) : Option (Text × Cursor) := do
  let (chomp, deeper, c) ← blockHead? c.step
  let c ← c.afterLine?
  let least := max 1 (outer + 1).toNat
  let (breaks, indent, c) :=
    match deeper with
    | some n =>
      let indent := least + n - 1
      let (breaks, c) := blockBreaks indent (c.rest.length + 1) c
      (breaks, indent, c)
    | none =>
      let (breaks, deepest, c) := blockStart (c.rest.length + 1) c 0
      (breaks, max least deepest, c)
  let (text, last, trailing, c) := blockLines indent fold (c.rest.length + 1) c breaks
  let tail : Text :=
    match chomp with
    | .strip => []
    | .clip => last
    | .keep => last ++ trailing
  pure (text ++ tail, c)

end Mender.Yaml
