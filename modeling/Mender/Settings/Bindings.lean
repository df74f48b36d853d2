import Mender.Text.Blank
import Mender.Text.Lines
import Mender.Text.Quoted
import Mender.Text.Search

namespace Mender.Reference

def opening : Text := "$\x7b"

def closing : CodePoint := '\x7d'

/-- The name of a reference and its default, and the rest after it; `t` is what comes after the mark
at its start. -/
def read? (t : Text) : Option ((Text × Option Text) × Text) :=
  let (name, rest) := t.span fun (c : CodePoint) => c != closing && c != ':'
  if Text.startsWith rest ":-" then
    match (rest.drop 2).span fun (c : CodePoint) => c != closing with
    | (_, []) => none
    | (default, _ :: rest) => some ((name, some default), rest)
  else
    match rest with
    | c :: rest => if c = closing then some ((name, none), rest) else none
    | [] => none

/-- The text with its references resolved, from the left; `fuel` bounds the number of steps. -/
def resolveFrom (value? : Text → Option Text) : (fuel : Nat) → Text → Text
  | 0, t => t
  | _, [] => []
  | fuel + 1, c :: rest =>
    let found := if Text.startsWith (c :: rest) opening then read? (rest.drop 1) else none
    match found with
    | some ((name, default), after) =>
      ((value? name).or default).getD [] ++ resolveFrom value? fuel after
    | none => c :: resolveFrom value? fuel rest

/-- The text with its references resolved; a name without a value and without a default stands for
nothing. -/
def resolve (value? : Text → Option Text) (t : Text) : Text := resolveFrom value? t.length t

end Mender.Reference

namespace Mender.Bindings

open CodePoint (apostrophe quotationMark)

def numberSign : CodePoint := '#'

def equalsSign : CodePoint := '='

def backslash : CodePoint := '\\'

def newline : CodePoint := '\n'

/-- A blank that does not end a line. -/
def isGap (c : CodePoint) : Bool := c.isBlank && c != newline

/-- The text inside quotes, up to the closing quote, and the rest. What stands after a backslash does
not close the quotes. -/
def quoted? (quote : CodePoint) : Text → Option (Text × Text)
  | [] => none
  | [c] => if c = quote then some ([], []) else none
  | c :: d :: rest =>
    if c = quote then some ([], d :: rest)
    else if c = backslash then (quoted? quote rest).map fun (inner, after) => (c :: d :: inner, after)
    else (quoted? quote (d :: rest)).map fun (inner, after) => (c :: inner, after)

def letters : List (Char × Nat) :=
  [('\\', 0x5C), ('\'', 0x27), ('"', 0x22), ('a', 0x07), ('b', 0x08), ('f', 0x0C), ('n', 0x0A),
    ('r', 0x0D), ('t', 0x09), ('v', 0x0B)]

/-- What a code point after a backslash stands for, if that has a meaning in these quotes. -/
def escape? (quote c : CodePoint) : Option CodePoint := do
  let (letter, n) ← letters.find? fun p => CodePoint.ofChar p.1 = c
  if quote = apostrophe && letter != '\\' && letter != '\'' then none else CodePoint.ofNat? n

def unescaped (quote : CodePoint) : Text → Text
  | [] => []
  | [c] => [c]
  | c :: d :: rest =>
    if c = backslash then
      match escape? quote d with
      | some e => e :: unescaped quote rest
      | none => c :: unescaped quote (d :: rest)
    else c :: unescaped quote (d :: rest)

/-- The text without a comment. A comment starts at a number sign after a blank. -/
def uncommented : Text → Text
  | [] => []
  | [c] => [c]
  | c :: d :: rest =>
    if c.isBlank && d = numberSign then [] else c :: uncommented (d :: rest)

/-- The value after an equals sign, and the rest. Nothing is an empty value, and so is a comment after
a blank. -/
def value? (t : Text) : Option (Text × Text) :=
  match t.dropWhile isGap with
  | [] => some ([], [])
  | c :: rest =>
    if c = apostrophe || c = quotationMark then
      (quoted? c rest).map fun (inner, after) => (unescaped c inner, after)
    else
      let (line, after) := t.span (· != newline)
      some ((uncommented line).trim, after)

/-- The name at the start of a text, and the rest. A comment has no name. -/
def name? (t : Text) : Option (Option Text × Text) :=
  match t with
  | [] => none
  | c :: rest =>
    if c = numberSign then some (none, t)
    else if c = apostrophe then
      match rest.span (· != apostrophe) with
      | (n :: ns, _ :: after) => some (some (n :: ns), after)
      | _ => none
    else
      match t.span fun c => c != equalsSign && c != numberSign && !c.isBlank with
      | (n :: ns, after) => some (some (n :: ns), after)
      | _ => none

/-- The text after the word `export`, if blanks follow the word. -/
def afterExport (t : Text) : Text :=
  if Text.startsWith t "export" && (t.drop 6).head?.any isGap then (t.drop 6).dropWhile isGap else t

/-- The rest after a comment and the end of the line, if nothing else is on the line. -/
def afterLine? (t : Text) : Option Text :=
  let rest := t.dropWhile isGap
  let rest := if rest.head? = some numberSign then rest.dropWhile (· != newline) else rest
  match rest with
  | [] => some []
  | c :: more => if c = newline then some more else none

/-- A step of reading, or the text at which it went wrong. -/
def orAt {α : Type} (t : Text) : Option α → Except Text α
  | some a => .ok a
  | none => .error t

/-- A name and its value at the start of a text, and the rest. A name alone has no value. A failure
gives the text from where it went wrong. -/
def binding (t : Text) : Except Text ((Option Text × Option Text) × Text) := do
  let start := afterExport t
  let (name, rest) ← orAt start (name? start)
  let rest := rest.dropWhile isGap
  if rest.head? = some equalsSign then
    let text := rest.drop 1
    let (value, rest) ← orAt (text.dropWhile isGap) (value? text)
    pure ((name, some value), ← orAt rest (afterLine? rest))
  else pure ((name, none), ← orAt rest (afterLine? rest))

/-- The bindings of a text in order. After a failure reading goes on with the next line. -/
def read : (fuel : Nat) → Text → List (Text × Option Text)
  | 0, _ => []
  | fuel + 1, t =>
    match t.dropWhile CodePoint.isBlank with
    | [] => []
    | c :: rest =>
      match binding (c :: rest) with
      | .ok ((some name, value), after) => (name, value) :: read fuel after
      | .ok ((none, _), after) => read fuel after
      | .error failed => read fuel ((failed.dropWhile (· != newline)).drop 1)

/-- The values of names with the references in them resolved in order: a reference is to a value
before it, or else to one of the environment. A name without a value hides the environment. -/
def resolved (environment : List (Text × Text)) :
    (before : List (Text × Option Text)) → List (Text × Option Text) → List (Text × Option Text)
  | before, [] => before
  | before, (name, value) :: rest =>
    let value? (other : Text) : Option Text :=
      match before.find? (·.1 = other) with
      | some (_, value) => some (value.getD [])
      | none => (environment.find? (·.1 = other)).map (·.2)
    resolved environment ((name, value.map (Reference.resolve value?)) :: before) rest

/-- The mark that may stand at the very start of a file. -/
def byteOrderMark : CodePoint := '\uFEFF'

/-- The values that a settings file gives to names; the last binding of a name counts. -/
def ofFile (environment : List (Text × Text)) (t : Text) : List (Text × Text) :=
  let t := if t.head? = some byteOrderMark then t.drop 1 else t
  let all := resolved environment [] (read (t.length + 1) (Text.withLineFeeds t))
  let names := (all.map (·.1)).eraseDups
  names.filterMap fun name =>
    (all.find? (·.1 = name)).bind fun p => p.2.map fun v => (name, v)

end Mender.Bindings
