import Mender.Text.CodePoint

namespace Mender.Yaml

def isBreak (c : CodePoint) : Bool :=
  c.val == 0x0A || c.val == 0x85 || c.val == 0x2028 || c.val == 0x2029

/-- A blank, a tab, a line end, or no code point at all. -/
def isGap (c : Option CodePoint) : Bool :=
  match c with
  | none => true
  | some c => c.val == 0 || c.val == 0x20 || c.val == 0x09 || c.val == 0x0D || isBreak c

def isSpace (c : CodePoint) : Bool := c.val == 0x20

def isSpaceOrTab (c : CodePoint) : Bool := c.val == 0x20 || c.val == 0x09

/-- A blank, a line end, or no code point at all; a tab is none of these. -/
def isGapButTab (c : Option CodePoint) : Bool := isGap c && !c.any fun c => c.val == 0x09

/-- The code point may stand in a YAML text. -/
def isAllowed (c : CodePoint) : Bool :=
  c.val == 0x09 || c.val == 0x0A || c.val == 0x0D || (0x20 ≤ c.val && c.val ≤ 0x7E)
    || c.val == 0x85 || (0xA0 ≤ c.val && c.val ≤ 0xD7FF) || (0xE000 ≤ c.val && c.val ≤ 0xFFFD)
    || 0x10000 ≤ c.val

/-- A code point of a name: an ASCII letter or digit, a hyphen or an underscore. -/
def isNamePart (c : CodePoint) : Bool :=
  c.isDigit || c.within 'a' 'z' || c.within 'A' 'Z' || c == '-' || c == '_'

end Mender.Yaml
