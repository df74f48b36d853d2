import Mender.Text.Search
import Mender.Text.Blank

namespace Mender

namespace CodePoint

def apostrophe : CodePoint := '\x27'

def quotationMark : CodePoint := '\x22'

def graveAccent : CodePoint := '\x60'

def isQuote (c : CodePoint) : Bool := c == apostrophe || c == quotationMark || c == graveAccent

end CodePoint

namespace Text

/-- The name in the quoted token that the text starts with. -/
def quotedAtStart? : Text → Option Text
  | [] => none
  | c :: rest =>
    if c.isQuote then
      match rest.span (fun d => !d.isQuote) with
      | (_, []) => none
      | ([], _) => none
      | (name, _ :: _) => some name
    else none

/-- The first answer of `read?` on the text and its suffixes, the longest first. -/
def firstSuffix? {α : Type} (read? : Text → Option α) : Text → Option α
  | [] => read? []
  | c :: rest => (read? (c :: rest)).or (firstSuffix? read? rest)

def quotedName? (t : Text) : Option Text := t.firstSuffix? quotedAtStart?

/-- The words that come before the name that a message says is missing. -/
def missingNameLeads : List Text := ["Cannot find name", "undefined name"]

/-- The name in a quoted token at the start, after one blank or more. -/
def spacedQuotedAtStart? (t : Text) : Option Text :=
  match t.span CodePoint.isBlank with
  | ([], _) => none
  | (_ :: _, rest) => quotedAtStart? rest

/-- The name that a message says is missing: a quoted token after the leading words. -/
def missingName? (t : Text) : Option Text :=
  t.firstSuffix? fun s =>
    missingNameLeads.findSome? fun lead =>
      if s.startsWith lead then spacedQuotedAtStart? (s.drop lead.length) else none

end Text

end Mender
