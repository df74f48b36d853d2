import Mender.Yaml.Mark
import Mender.Yaml.Resolution
import Mender.Text.Search
import Mender.Json.Writer

namespace Mender.Yaml

/-- The code point can stand in a text without an escape. -/
def isPlainly (c : CodePoint) : Bool :=
  c.val == 0x0A || (0x20 ≤ c.val && c.val ≤ 0x7E) || c.val == 0x85
    || (0xA0 ≤ c.val && c.val ≤ 0xD7FF)
    || (0xE000 ≤ c.val && c.val ≤ 0xFFFD && c.val != 0xFEFF)
    || (0x10000 ≤ c.val && c.val < 0x10FFFF)

/-- Code points that mean something at the start of a scalar. -/
def leadIndicators : Text := "#,[]\x7b\x7d&*!|>'\"%@\x60"

/-- Each code point with the one before it and the one after it. -/
def neighbours (before : Option CodePoint) : Text → List (Option CodePoint × CodePoint × Option CodePoint)
  | [] => []
  | c :: rest => (before, c, rest.head?) :: neighbours (some c) rest

/-- A code point that would be read as a sign for something else where it stands. -/
def isIndicator : Option CodePoint × CodePoint × Option CodePoint → Bool
  | (before, c, after) =>
    match before with
    | none =>
      leadIndicators.contains c || ((c == '?' || c == ':' || c == '-') && isGap after)
    | some _ => (c == ':' && isGap after) || (c == '#' && isGap before)

/-- Two neighbours satisfy the given tests. -/
def hasPair (p q : CodePoint → Bool) (t : Text) : Bool :=
  (t.zip (t.drop 1)).any fun (c, d) => p c && q d

/-- How a text is written. -/
inductive Style where
  | plain
  | single
  | double
deriving DecidableEq

def styleOf (t : Text) : Style :=
  if t.isEmpty then .single
  else if hasPair isSpace isBreak t || !t.all isPlainly then .double
  else if hasPair isBreak isSpace t then .double
  else
    let edge (c : Option CodePoint) : Bool := c.any fun c => isSpace c || isBreak c
    let marked := t.startsWith "---" || t.startsWith "..." || (neighbours none t).any isIndicator
    if edge t.head? || edge t.getLast? || t.any isBreak || marked || impliedTag t != .text then .single
    else .plain

/-- A line is folded at a blank once it is longer than this. -/
def foldWidth : Nat := 1024

/-- Blanks at the start of a further line. -/
def marginText (indent : Nat) : Text := List.replicate indent (CodePoint.ofChar ' ')

/-- A text without quotes or inside single ones, from a column on. A single quote is doubled; a run of
line ends gets one more at its front if it starts with a line feed; a lone blank beyond the width
gives way to a line end. -/
def foldedBody (indent column : Nat) (before : Option CodePoint) (quoted : Bool) : Text → Text
  | [] => if before.any isBreak then marginText indent else []
  | c :: rest =>
    let afterBreak := before.any isBreak
    if isBreak c then
      let extra : Text := if c.val = 0x0A && !afterBreak then [c] else []
      extra ++ [c] ++ foldedBody indent 0 (some c) quoted rest
    else
      let margin := if afterBreak then marginText indent else []
      let column := if afterBreak then indent else column
      let alone := isSpace c && before.any (!isSpace ·) && rest.head?.any (!isSpace ·)
      if alone && foldWidth < column then
        "\n" ++ marginText indent ++ foldedBody indent indent (some c) quoted rest
      else
        let shown : Text := if quoted && c.val = 0x27 then [c, c] else [c]
        margin ++ shown ++ foldedBody indent (column + shown.length) (some c) quoted rest

def escapeLetters : List (Nat × Char) :=
  [(0x00, '0'), (0x07, 'a'), (0x08, 'b'), (0x09, 't'), (0x0A, 'n'), (0x0B, 'v'), (0x0C, 'f'),
    (0x0D, 'r'), (0x1B, 'e'), (0x22, '"'), (0x5C, '\\'), (0x85, 'N'), (0x2028, 'L'), (0x2029, 'P')]

def capitalHex (n width : Nat) : Text :=
  (hexText n width).map fun c =>
    if c.within 'a' 'f' then (CodePoint.ofNat? (c.val - 32)).getD c else c

/-- A code point in double quotes. -/
def doubleEscaped (c : CodePoint) : Text :=
  match escapeLetters.find? (·.1 = c.val) with
  | some (_, letter) => "\\" ++ [CodePoint.ofChar letter]
  | none =>
    if (0x20 ≤ c.val && c.val ≤ 0x7E) || (0xA0 ≤ c.val && c.val ≤ 0xD7FF)
      || (0xE000 ≤ c.val && c.val ≤ 0xFFFD && c.val != 0xFEFF) then [c]
    else if c.val ≤ 0xFF then "\\x" ++ capitalHex c.val 2
    else if c.val ≤ 0xFFFF then "\\u" ++ capitalHex c.val 4
    else "\\U" ++ capitalHex c.val 8

/-- A text inside double quotes, from a column on. Beyond the width a line is folded before a blank or
after an escape. `first` says that nothing was written yet, `fresh` that an escape came just before. -/
def doubleBody (indent column : Nat) (first fresh : Bool) : Text → Text
  | [] => []
  | c :: rest =>
    let shown := doubleEscaped c
    let inner := !first && !rest.isEmpty
    if shown.length = 1 then
      if inner && (isSpace c || fresh) && foldWidth < column then
        let mark : Text := if isSpace c then "\\" else []
        "\\\n" ++ marginText indent ++ mark ++ [c]
          ++ doubleBody indent (indent + mark.length + 1) false false rest
      else [c] ++ doubleBody indent (column + 1) false false rest
    else
      let column := column + shown.length
      if inner && foldWidth + 1 < column then
        let mark : Text := if rest.head?.any isSpace then "\\" else []
        shown ++ "\\\n" ++ marginText indent ++ mark
          ++ doubleBody indent (indent + mark.length) false true rest
      else shown ++ doubleBody indent column false true rest

/-- A text as a scalar after a key that takes `column` columns; `indent` is the margin of its further
lines. -/
def scalarText (indent column : Nat) (t : Text) : Text :=
  match styleOf t with
  | .plain => foldedBody indent column none false t
  | .single => "'" ++ foldedBody indent (column + 1) none true t ++ "'"
  | .double => "\"" ++ doubleBody indent (column + 1) true false t ++ "\""

def keyLine (depth : Nat) (key value : Text) : Text :=
  marginText (2 * depth) ++ key ++ ": " ++ value ++ "\n"

def textLine (depth : Nat) (key t : Text) : Text :=
  keyLine depth key (scalarText (2 * depth + 2) (2 * depth + key.length + 2) t)

end Mender.Yaml
