import Mender.Text.CodePoint

namespace Mender

namespace Text

def lineFeed : CodePoint := '\n'

/-- The lines of a text, without their line feeds. A final line feed leaves an empty last line. -/
def lines : Text → List Text
  | [] => [[]]
  | c :: rest =>
    if c = lineFeed then [] :: lines rest
    else
      match lines rest with
      | [] => [[c]]
      | line :: more => (c :: line) :: more

def ofLines (ls : List Text) : Text := [lineFeed].intercalate ls

theorem lines_ne_nil (t : Text) : t.lines ≠ [] := by
  cases t with
  | nil => simp [lines]
  | cons c rest =>
    unfold lines
    split
    · simp
    · split <;> simp

end Text

def CodePoint.endsLine (c : CodePoint) : Bool :=
  (0x0A ≤ c.val && c.val ≤ 0x0D) || (0x1C ≤ c.val && c.val ≤ 0x1E) || c.val == 0x85
    || c.val == 0x2028 || c.val == 0x2029

namespace Text

/-- A line feed at the start of the text belongs to the carriage return `c` before it. -/
def joinsNext (c : CodePoint) (rest : Text) : Bool :=
  c.val == 0x0D && rest.head?.any fun d => d.val == 0x0A

/-- The lines with their ends; an empty text has none. -/
def brokenLines : Text → List Text
  | [] => []
  | c :: rest =>
    if c.endsLine && !joinsNext c rest then [c] :: brokenLines rest
    else
      match brokenLines rest with
      | [] => [[c]]
      | line :: more => (c :: line) :: more

/-- Copies a text with each carriage return as a line feed; a line feed right after one is dropped. -/
def lineFeedsAfter (returned : Bool) : Text → Text
  | [] => []
  | c :: rest =>
    if c.val = 0x0A && returned then lineFeedsAfter false rest
    else if c.val = 0x0D then CodePoint.ofChar '\n' :: lineFeedsAfter true rest
    else c :: lineFeedsAfter false rest

/-- The text with a line feed for each carriage return, and one for both together. -/
def withLineFeeds (t : Text) : Text := lineFeedsAfter false t

end Text

end Mender
