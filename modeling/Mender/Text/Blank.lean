import Mender.Text.CodePoint

namespace Mender

namespace CodePoint

/-- The code points with the white space property. -/
def isWhiteSpace (c : CodePoint) : Bool :=
  (0x09 ≤ c.val && c.val ≤ 0x0D) || c.val == 0x20 || c.val == 0x85 || c.val == 0xA0
    || c.val == 0x1680 || (0x2000 ≤ c.val && c.val ≤ 0x200A) || c.val == 0x2028
    || c.val == 0x2029 || c.val == 0x202F || c.val == 0x205F || c.val == 0x3000

/-- White space and the information separators U+001C to U+001F. -/
def isBlank (c : CodePoint) : Bool :=
  c.isWhiteSpace || (0x1C ≤ c.val && c.val ≤ 0x1F)

end CodePoint

namespace Text

/-- The text without what satisfies `p` at its end. -/
def trimRightWhere (p : CodePoint → Bool) (t : Text) : Text := (t.reverse.dropWhile p).reverse

/-- The text without what satisfies `p` at either end. -/
def trimWhere (p : CodePoint → Bool) (t : Text) : Text := trimRightWhere p (t.dropWhile p)

def trimRight (t : Text) : Text := trimRightWhere CodePoint.isBlank t

def trim (t : Text) : Text := trimWhere CodePoint.isBlank t

end Text

end Mender
