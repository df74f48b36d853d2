import Mender.Text.Encoding
import Mender.Yaml.Scalar

namespace Mender.Yaml

inductive Token where
  | version (major : Nat)
  | handle (name address : Text)
  | directive
  | documentStart
  | documentEnd
  | blockSequence
  | blockMapping
  | blockEnd
  | flowSequence
  | flowSequenceEnd
  | flowMapping
  | flowMappingEnd
  | item
  | comma
  | key
  | value
  | alias (name : Text)
  | anchor (name : Text)
  | tag (handle : Option Text) (suffix : Text)
  | scalar (plain : Bool) (text : Text)
deriving DecidableEq

/-- Something that is a key if a colon follows: where it starts, in the text and among the tokens. A
needed one is an error without the colon. -/
structure KeyChance where
  token : Nat
  needed : Bool
  line : Nat
  column : Nat
  index : Nat

/-- How far the tokens of a text are known. `indents` holds the columns of the open blocks, innermost
first, and `depth` counts the open brackets. -/
structure Lexer where
  cursor : Cursor
  indents : List Nat
  depth : Nat
  mayStartKey : Bool
  chances : List (Nat × KeyChance)
  tokens : List Token

namespace Lexer

/-- The lexer before a text; a byte order mark at the start does not count. -/
def start (t : Text) : Lexer :=
  let c := Cursor.start t
  let c := if c.next?.any fun d => d.val == 0xFEFF then c.step else c
  ⟨c, [], 0, true, [], []⟩

/-- The column of the innermost block, or one before all columns. -/
def indent (s : Lexer) : Int :=
  match s.indents with
  | [] => -1
  | column :: _ => column

def emit (s : Lexer) (t : Token) : Lexer := { s with tokens := s.tokens ++ [t] }

def goto (s : Lexer) (c : Cursor) : Lexer := { s with cursor := c }

/-- Puts a token before the token of a number. -/
def putToken (s : Lexer) (number : Nat) (t : Token) : Lexer :=
  { s with tokens := s.tokens.take number ++ t :: s.tokens.drop number }

/-- Something may be a key at this depth. -/
def chance? (s : Lexer) : Option KeyChance := (s.chances.find? (·.1 = s.depth)).map (·.2)

def forget (s : Lexer) : Lexer := { s with chances := s.chances.filter (·.1 ≠ s.depth) }

/-- Gives up what may be a key at this depth; a needed one cannot be given up. -/
def giveUp (s : Lexer) : Option Lexer :=
  if s.chance?.any (·.needed) then none else some s.forget

/-- What starts here may be a key, if keys may start here. -/
def takeChance (s : Lexer) : Option Lexer :=
  if s.mayStartKey then do
    let needed := s.depth = 0 && s.indent = s.cursor.column
    let s ← s.giveUp
    let chance : KeyChance :=
      ⟨s.tokens.length, needed, s.cursor.line, s.cursor.column, s.cursor.index⟩
    pure { s with chances := (s.depth, chance) :: s.chances }
  else some s

/-- A key has to end on its line, within 1024 code points. -/
def dropStale (s : Lexer) : Option Lexer :=
  let stale (k : KeyChance) : Bool := k.line ≠ s.cursor.line || k.index + 1024 < s.cursor.index
  if s.chances.any fun p => stale p.2 && p.2.needed then none
  else some { s with chances := s.chances.filter fun p => !stale p.2 }

/-- Ends the blocks that are further in than a column. -/
def closeTo (column : Int) : List Nat → List Nat × List Token
  | [] => ([], [])
  | c :: rest =>
    if column < c then
      let (open_, ends) := closeTo column rest
      (open_, .blockEnd :: ends)
    else (c :: rest, [])

/-- Ends blocks further in than a column; inside brackets indentation does not count. -/
def unwind (s : Lexer) (column : Int) : Lexer :=
  if s.depth ≠ 0 then s
  else
    let (blocks, ends) := closeTo column s.indents
    { s with indents := blocks, tokens := s.tokens ++ ends }

/-- Starts a block at a column if that is further in. Its token goes before the token of a number. -/
def openBlock (s : Lexer) (column number : Nat) (t : Token) : Lexer :=
  if s.indent < column then { s.putToken number t with indents := column :: s.indents } else s

/-- The lexer at the next token: after blanks, comments and line ends. -/
def toToken : (fuel : Nat) → Lexer → Lexer
  | 0, s => s
  | fuel + 1, s =>
    let c := s.cursor.skip isSpace
    let c := if c.next? = some (CodePoint.ofChar '#') then c.skip (!isBreak ·) else c
    if c.atBreak then
      toToken fuel { s with cursor := c.lineEnd.2, mayStartKey := s.mayStartKey || s.depth = 0 }
    else s.goto c

/-! Directives, tags and names -/

/-- A number of digits, at least one. -/
def number? (c : Cursor) : Option (Nat × Cursor) :=
  let (digits, c) := c.span CodePoint.isDigit
  if digits.isEmpty then none
  else some (digits.foldl (fun n d => n * 10 + (d.val - 48)) 0, c)

/-- A code point of an address. -/
def isAddressPart (c : CodePoint) : Bool :=
  isNamePart c || (Text.ofString ";/?:@&=+$,.!~*'()[]").contains c

/-- Octets that are written as a percent sign and two digits each. -/
def percents? : (fuel : Nat) → Cursor → Option (List UInt8 × Cursor)
  | 0, _ => none
  | fuel + 1, c =>
    match c.after? '%' with
    | none => some ([], c)
    | some c => do
      let digits := c.rest.take 2
      if digits.length < 2 then none
      let n ← hexValue? digits
      let (more, c) ← percents? fuel (c.steps 2)
      pure (UInt8.ofNat n :: more, c)

/-- An address, which may be empty. Octets in a row are the code points that they are in UTF-8. -/
def addressFrom : (fuel : Nat) → Cursor → Option (Text × Cursor)
  | 0, c => some ([], c)
  | fuel + 1, c => do
    let (part, c) := c.span isAddressPart
    if c.next? = some (CodePoint.ofChar '%') then
      let (octets, c) ← percents? (c.rest.length + 1) c
      let coded ← Text.ofOctets? octets
      let (more, c) ← addressFrom fuel c
      pure (part ++ coded ++ more, c)
    else pure (part, c)

def address? (c : Cursor) : Option (Text × Cursor) := do
  let (text, c) ← addressFrom (c.rest.length + 1) c
  if text.isEmpty then none else pure (text, c)

/-- A handle for tags: a name between two marks, or one mark alone. -/
def handle? (c : Cursor) : Option (Text × Cursor) := do
  let mark : CodePoint := '!'
  let c ← c.after? mark
  if c.next?.any isSpace then pure ([mark], c)
  else
    let (name, c) := c.span isNamePart
    if c.next? = some mark then pure (mark :: name ++ [mark], c.step) else none

/-- The token of a directive and the place after its line. -/
def directive? (c : Cursor) : Option (Token × Cursor) := do
  let (name, c) := c.step.span isNamePart
  if name.isEmpty || !isGapButTab c.next? then none
  if name = ("YAML" : Text) then
    let (major, c) ← number? (c.skip isSpace)
    let (_, c) ← number? (← c.after? '.')
    if !isGapButTab c.next? then none
    pure (.version major, ← c.afterLine?)
  else if name = ("TAG" : Text) then
    let (h, c) ← handle? (c.skip isSpace)
    if !c.next?.any isSpace then none
    let (address, c) ← address? (c.skip isSpace)
    if !isGapButTab c.next? then none
    pure (.handle h address, ← c.afterLine?)
  else pure (.directive, ← (c.skip (!isBreak ·)).afterLine?)

/-- The token of a tag and the place after it. -/
def tag? (c : Cursor) : Option (Token × Cursor) := do
  let mark : CodePoint := '!'
  let (token, c) ←
    if c.second? = some (CodePoint.ofChar '<') then do
      let (suffix, c) ← address? (c.steps 2)
      pure (Token.tag none suffix, ← c.after? '>')
    else if isGap c.second? then pure (Token.tag none [mark], c.step)
    else do
      let word := (c.rest.drop 1).takeWhile fun d => !isGapButTab (some d)
      let (h, c) ← if word.contains mark then handle? c else pure ([mark], c.step)
      let (suffix, c) ← address? c
      pure (Token.tag (some h) suffix, c)
  if isGapButTab c.next? then pure (token, c) else none

/-- The name after the sign of an anchor or an alias, and the place after it. -/
def name? (c : Cursor) : Option (Text × Cursor) :=
  let (name, c) := c.step.span isNamePart
  let ends := isGap c.next? || c.next?.any fun d => (Text.ofString "?:,]\x7d%@\x60").contains d
  if name.isEmpty || !ends then none else some (name, c)

/-! Single tokens -/

/-- The next code point begins a plain scalar. -/
def startsPlain (s : Lexer) (d : CodePoint) : Bool :=
  !(isGap (some d) || (Text.ofString "-?:,[]\x7b\x7d#&*!|>'\"%@\x60").contains d)
    || (!isGap s.cursor.second?
      && (d == '-' || (s.depth = 0 && (d == '?' || d == ':'))))

/-- A mark of three code points at the start of a line. -/
def atMark (s : Lexer) (mark : Text) : Bool :=
  s.cursor.column = 0 && s.cursor.rest.startsWith mark && isGap (s.cursor.rest.drop 3).head?

/-- Ends all blocks, before a mark of a document or a directive. -/
def endBlocks (s : Lexer) : Option Lexer := do
  let s ← (s.unwind (-1)).giveUp
  pure { s with mayStartKey := false }

def openBracket (s : Lexer) (t : Token) : Option Lexer := do
  let s ← s.takeChance
  pure ({ s with depth := s.depth + 1, mayStartKey := true, cursor := s.cursor.step }.emit t)

def closeBracket (s : Lexer) (t : Token) : Option Lexer := do
  let s ← s.giveUp
  pure ({ s with depth := s.depth - 1, mayStartKey := false, cursor := s.cursor.step }.emit t)

def comma (s : Lexer) : Option Lexer := do
  let s ← { s with mayStartKey := true }.giveUp
  pure ((s.goto s.cursor.step).emit .comma)

def blockItem (s : Lexer) : Option Lexer := do
  let s ←
    if s.depth ≠ 0 then pure s
    else if s.mayStartKey then pure (s.openBlock s.cursor.column s.tokens.length .blockSequence)
    else none
  let s ← { s with mayStartKey := true }.giveUp
  pure ((s.goto s.cursor.step).emit .item)

def explicitKey (s : Lexer) : Option Lexer := do
  let s ←
    if s.depth ≠ 0 then pure s
    else if s.mayStartKey then pure (s.openBlock s.cursor.column s.tokens.length .blockMapping)
    else none
  let s ← { s with mayStartKey := s.depth = 0 }.giveUp
  pure ((s.goto s.cursor.step).emit .key)

/-- A colon: what was read may turn out to be a key. -/
def colon (s : Lexer) : Option Lexer := do
  match s.chance? with
  | some chance =>
    let s := s.forget.putToken chance.token .key
    let s := if s.depth = 0 then s.openBlock chance.column chance.token .blockMapping else s
    pure (({ s with mayStartKey := false }.goto s.cursor.step).emit .value)
  | none =>
    let s ←
      if s.depth ≠ 0 then pure s
      else if s.mayStartKey then pure (s.openBlock s.cursor.column s.tokens.length .blockMapping)
      else none
    let s ← { s with mayStartKey := s.depth = 0 }.giveUp
    pure ((s.goto s.cursor.step).emit .value)

/-- A token that may be a key or come before one. -/
def keyLike (s : Lexer) (read : Cursor → Except Misread (Token × Cursor)) : Except Misread Lexer := do
  let s ← required s.takeChance
  let (t, c) ← read s.cursor
  pure ({ s with mayStartKey := false, cursor := c }.emit t)

def quoted (s : Lexer) (double : Bool) : Except Misread Lexer :=
  s.keyLike fun c => do
    let (t, c) ← quotedScalar double c
    pure (.scalar false t, c)

/-- A plain scalar. After a line end a key may start. -/
def plain (s : Lexer) : Option Lexer := do
  let s ← s.takeChance
  let (text, c, ended) := plainScalar (s.indent + 1) (s.depth ≠ 0) s.cursor
  pure ({ s with mayStartKey := ended, cursor := c }.emit (.scalar true text))

def block (s : Lexer) (fold : Bool) : Option Lexer := do
  let s ← { s with mayStartKey := true }.giveUp
  let (text, c) ← blockScalar? s.indent fold s.cursor
  pure ((s.goto c).emit (.scalar false text))

/-- The lexer after a directive. -/
def directive (s : Lexer) : Option Lexer := do
  let s ← s.endBlocks
  let (t, c) ← directive? s.cursor
  pure ((s.goto c).emit t)

/-- The lexer after a mark that starts or ends a document. -/
def documentMark (s : Lexer) (t : Token) : Option Lexer := do
  let s ← s.endBlocks
  pure ((s.goto (s.cursor.steps 3)).emit t)

/-- The lexer after the next token, where `d` is the next code point. -/
def read (s : Lexer) (d : CodePoint) : Except Misread Lexer :=
  if d == '%' && s.cursor.column = 0 then required s.directive
  else if s.atMark "---" then required (s.documentMark .documentStart)
  else if s.atMark "..." then required (s.documentMark .documentEnd)
  else if d == '[' then required (s.openBracket .flowSequence)
  else if d == '\x7b' then required (s.openBracket .flowMapping)
  else if d == ']' then required (s.closeBracket .flowSequenceEnd)
  else if d == '\x7d' then required (s.closeBracket .flowMappingEnd)
  else if d == ',' then required s.comma
  else if d == '-' && isGap s.cursor.second? then required s.blockItem
  else if d == '?' && (s.depth ≠ 0 || isGap s.cursor.second?) then required s.explicitKey
  else if d == ':' && (s.depth ≠ 0 || isGap s.cursor.second?) then required s.colon
  else if d == '*' then
    s.keyLike fun c => required ((name? c).map fun (n, c) => (.alias n, c))
  else if d == '&' then
    s.keyLike fun c => required ((name? c).map fun (n, c) => (.anchor n, c))
  else if d == '!' then s.keyLike fun c => required (tag? c)
  else if d == '|' && s.depth = 0 then required (s.block false)
  else if d == '>' && s.depth = 0 then required (s.block true)
  else if d == '\'' then s.quoted false
  else if d == '"' then s.quoted true
  else if s.startsPlain d then required s.plain
  else .error .malformed

/-- The lexer after the next token, or the end of the blocks at the end of the text. The second part
says that the text goes on. -/
def advance (s : Lexer) : Except Misread (Lexer × Bool) := do
  let s ← required (toToken (s.cursor.rest.length + 1) s).dropStale
  let s := s.unwind s.cursor.column
  match s.cursor.next? with
  | none => pure (← required (s.unwind (-1)).giveUp, false)
  | some d => pure (← s.read d, true)

/-- How many tokens are certain: those before anything that may still be a key. -/
def certain (s : Lexer) : Nat :=
  match s.dropStale with
  | some s => s.chances.foldl (fun least p => min least p.2.token) s.tokens.length
  | none => s.tokens.length

/-- The tokens up to the end of the text, or the certain ones before trouble and the trouble. -/
def run : (fuel : Nat) → Lexer → List Token × Option Misread
  | 0, s => (s.tokens, some .malformed)
  | fuel + 1, s =>
    match s.advance with
    | .error trouble => (s.tokens.take s.certain, some trouble)
    | .ok (next, true) => run fuel next
    | .ok (next, false) => (next.tokens, none)

end Lexer

/-- The tokens of a text up to the first trouble, and the trouble. -/
def Token.ofText (t : Text) : List Token × Option Misread :=
  if t.all isAllowed then (Lexer.start t).run (t.length + 2) else ([], some .malformed)

end Mender.Yaml
