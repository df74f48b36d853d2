import Mender.Text.Quoted

namespace Mender

namespace CodePoint

def closer? (c : CodePoint) : Option CodePoint :=
  if c = '(' then some ')'
  else if c = '[' then some ']'
  else if c.val = 0x7B then some '\x7d'
  else none

end CodePoint

namespace Text

/-- The closing brackets that are still missing after the rest of a line. `quote` is the open quote,
`escaped` says that a backslash came just before, and `missing` are the closing brackets missing so
far, the innermost first. -/
def closersAfter (quote : Option CodePoint) (escaped : Bool) (missing : Text) : Text → Text
  | [] => missing
  | c :: rest =>
    match quote with
    | some q =>
      if escaped then closersAfter (some q) false missing rest
      else if c.val = 0x5C then closersAfter (some q) true missing rest
      else if c = q then closersAfter none false missing rest
      else closersAfter (some q) false missing rest
    | none =>
      if c.isQuote then closersAfter (some c) false missing rest
      else if c = '#' then missing
      else
        match c.closer? with
        | some closer => closersAfter none false (closer :: missing) rest
        | none =>
          match missing with
          | [] => closersAfter none false [] rest
          | m :: more => closersAfter none false (if c = m then more else m :: more) rest

/-- The closing brackets that a line needs, the innermost first. -/
def missingClosers (line : Text) : Text := closersAfter none false [] line

end Text

end Mender
